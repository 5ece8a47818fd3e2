import SceneScript.Proofs.Json.Behind
import SceneScript.Proofs.Json.ReadBack
import SceneScript.Proofs.Outcome

/-!
# What the reader gives

Whatever the reader gives, **what it leaves is the end of its text** (`leaves_read`). What it read
starts and ends with a character that is seen, so that blanks around a value are never part of it.

Every value that the strict reader gives is **in range** (`inRange_read`): it refuses the whole
numbers that are not, and an object keeps the last of two members under one name. So whatever a
script holds can be written and read back.

Both are inductions on the fuel (`reads`), as the reader's recursion is. What one step of it can do
is said once, in `readValue_cases`, `readMembers_cases` and `readItems_cases`.
-/

set_option autoImplicit false

namespace SceneScript
namespace Json

open Outcome (map_eq_ok)

variable {α : Type} [Scalar α]

/-! ## What one step can do -/

section Steps

variable {dialect : Dialect} {fuel : Nat} {s r : List Char}

/-- A value is a string, an object, an array or a simple value. -/
theorem readValue_cases {v : Json α} (h : readValue dialect (fuel + 1) s = .ok (v, r)) :
    (∃ s₁ t, s = '"' :: s₁ ∧ readString s.length none s₁ = .ok (t, r) ∧
      v = .str (String.ofList t)) ∨
    (∃ s₁, s = '\x7b' :: s₁ ∧ skipSpace s₁ = '\x7d' :: r ∧ v = .obj []) ∨
    (∃ s₁ ms, s = '\x7b' :: s₁ ∧ readMembers dialect fuel (skipSpace s₁) = .ok (ms, r) ∧
      v = .obj (Fields.ofPairs ms)) ∨
    (∃ s₁, s = '[' :: s₁ ∧ skipSpace s₁ = ']' :: r ∧ v = .arr []) ∨
    (∃ s₁ items, s = '[' :: s₁ ∧ readItems dialect fuel (skipSpace s₁) = .ok (items, r) ∧
      v = .arr items) ∨
    readSimple dialect s = .ok (v, r) := by
  cases s with
  | nil => cases h
  | cons c s₁ =>
    rw [readValue] at h
    split at h
    · next hc =>
      subst hc
      split at h
      · cases h
      · next t r' hs =>
        cases h
        exact .inl ⟨s₁, t, rfl, hs, rfl⟩
    split at h
    · next hc =>
      subst hc
      split at h
      · cases h
      · next d r' hd =>
        split at h
        · next he =>
          subst he
          cases h
          exact .inr (.inl ⟨s₁, rfl, hd, rfl⟩)
        · rw [← hd] at h
          split at h
          · cases h
          · next ms rest hms =>
            cases h
            exact .inr (.inr (.inl ⟨s₁, ms, rfl, hms, rfl⟩))
    split at h
    · next hc =>
      subst hc
      split at h
      · cases h
      · next d r' hd =>
        split at h
        · next he =>
          subst he
          cases h
          exact .inr (.inr (.inr (.inl ⟨s₁, rfl, hd, rfl⟩)))
        · rw [← hd] at h
          split at h
          · cases h
          · next items rest hitems =>
            cases h
            exact .inr (.inr (.inr (.inr (.inl ⟨s₁, items, rfl, hitems, rfl⟩))))
    · exact .inr (.inr (.inr (.inr (.inr h))))

/-- Members are one member and the closing brace, or one and more of them. -/
theorem readMembers_cases {ms : List (String × Json α)}
    (h : readMembers dialect (fuel + 1) s = .ok (ms, r)) :
    ∃ s₁ name s₂ s₃ v s₄, s = '"' :: s₁ ∧ readString s.length none s₁ = .ok (name, s₂) ∧
      skipSpace s₂ = ':' :: s₃ ∧ readValue dialect fuel (skipSpace s₃) = .ok (v, s₄) ∧
      ((skipSpace s₄ = '\x7d' :: r ∧ ms = [(String.ofList name, v)]) ∨
        ∃ s₅ rest, skipSpace s₄ = ',' :: s₅ ∧
          readMembers dialect fuel (skipSpace s₅) = .ok (rest, r) ∧
          ms = (String.ofList name, v) :: rest) := by
  cases s with
  | nil => cases h
  | cons c s₁ =>
    rw [readMembers] at h
    split at h
    · cases h
    next hc =>
    rw [Decidable.not_not] at hc
    subst hc
    split at h
    · cases h
    next name s₂ hname =>
    split at h
    · cases h
    next d s₃ hd =>
    split at h
    · cases h
    next hcolon =>
    rw [Decidable.not_not] at hcolon
    subst hcolon
    split at h
    · cases h
    next v s₄ hv =>
    refine ⟨s₁, name, s₂, s₃, v, s₄, rfl, hname, hd, hv, ?_⟩
    split at h
    · cases h
    next e s₅ he =>
    split at h
    · next hbrace =>
      subst hbrace
      cases h
      exact .inl ⟨he, rfl⟩
    split at h
    · next hcomma =>
      subst hcomma
      split at h
      · cases h
      · next rest r' hrest =>
        cases h
        exact .inr ⟨s₅, rest, he, hrest, rfl⟩
    · cases h

/-- Items are one item and the closing bracket, or one and more of them. -/
theorem readItems_cases {items : List (Json α)}
    (h : readItems dialect (fuel + 1) s = .ok (items, r)) :
    ∃ v s₁, readValue dialect fuel s = .ok (v, s₁) ∧
      ((skipSpace s₁ = ']' :: r ∧ items = [v]) ∨
        ∃ s₂ rest, skipSpace s₁ = ',' :: s₂ ∧
          readItems dialect fuel (skipSpace s₂) = .ok (rest, r) ∧ items = v :: rest) := by
  rw [readItems] at h
  split at h
  · cases h
  next v s₁ hv =>
  refine ⟨v, s₁, hv, ?_⟩
  split at h
  · cases h
  next d s₂ hd =>
  split at h
  · next hbracket =>
    subst hbracket
    cases h
    exact .inl ⟨hd, rfl⟩
  split at h
  · next hcomma =>
    subst hcomma
    split at h
    · cases h
    · next rest r' hrest =>
      cases h
      exact .inr ⟨s₂, rest, hd, hrest, rfl⟩
  · cases h

/-- What the three readers give with some fuel has the properties, one for each reader. -/
structure Reads (dialect : Dialect) (onValue : List Char → List Char → Json α → Prop)
    (onMembers : List Char → List Char → List (String × Json α) → Prop)
    (onItems : List Char → List Char → List (Json α) → Prop) (fuel : Nat) : Prop where
  value : ∀ s r v, readValue dialect fuel s = .ok (v, r) → onValue s r v
  members : ∀ s r ms, readMembers dialect fuel s = .ok (ms, r) → onMembers s r ms
  items : ∀ s r vs, readItems dialect fuel s = .ok (vs, r) → onItems s r vs

/-- **Induction over reading**: the properties hold with any fuel if one step hands them on. -/
theorem reads {onValue : List Char → List Char → Json α → Prop}
    {onMembers : List Char → List Char → List (String × Json α) → Prop}
    {onItems : List Char → List Char → List (Json α) → Prop}
    (hvalue : ∀ fuel, Reads dialect onValue onMembers onItems fuel →
      ∀ s r v, readValue dialect (fuel + 1) s = .ok (v, r) → onValue s r v)
    (hmembers : ∀ fuel, Reads dialect onValue onMembers onItems fuel →
      ∀ s r ms, readMembers dialect (fuel + 1) s = .ok (ms, r) → onMembers s r ms)
    (hitems : ∀ fuel, Reads dialect onValue onMembers onItems fuel →
      ∀ s r vs, readItems dialect (fuel + 1) s = .ok (vs, r) → onItems s r vs) (fuel : Nat) :
    Reads dialect onValue onMembers onItems fuel := by
  induction fuel with
  | zero =>
    refine ⟨fun s r v h => ?_, fun s r ms h => ?_, fun s r vs h => ?_⟩
    · cases h
    · cases h
    · cases h
  | succ fuel ih => exact ⟨hvalue fuel ih, hmembers fuel ih, hitems fuel ih⟩

omit [Scalar α] in
theorem exists_word_of_readWord? {v : Json α} (h : readWord? s = some (v, r)) :
    ∃ word, (word, v) ∈ words ∧ word ++ r = s := by
  unfold readWord? at h
  obtain ⟨⟨word, w⟩, hmem, hw⟩ := List.exists_of_findSome?_eq_some h
  obtain ⟨t, ht, he⟩ := Option.map_eq_some_iff.mp hw
  cases he
  exact ⟨word, hmem, List.isPrefixOf?_eq_some_iff_append_eq.mp ht⟩

theorem readNonFinite?_append {x : NonFinite} (h : readNonFinite? s = some (x, r)) :
    (nonFiniteName x).toList ++ r = s := by
  unfold readNonFinite? at h
  obtain ⟨y, -, hy⟩ := List.exists_of_findSome?_eq_some h
  obtain ⟨t, ht, he⟩ := Option.map_eq_some_iff.mp hy
  cases he
  exact List.isPrefixOf?_eq_some_iff_append_eq.mp ht

theorem exists_parts_of_readNumber {v : Json α} (h : readNumber dialect s = .ok (v, r)) :
    ∃ p numeral, readParts? s = some (p, r) ∧ numberValue dialect p numeral = .ok v := by
  unfold readNumber at h
  split at h
  · cases h
  · next p _ hp =>
    split at h
    · cases h
    · next hv =>
      cases h
      exact ⟨p, _, hp, hv⟩

omit [Scalar α] in
theorem visible_words : ∀ p ∈ words (α := α), p.1 ≠ [] ∧ ∀ c ∈ p.1, Text.Visible c := by
  simp [words, Text.Visible]

theorem visible_nonFiniteName (x : NonFinite) :
    (nonFiniteName x).toList ≠ [] ∧ ∀ c ∈ (nonFiniteName x).toList, Text.Visible c := by
  cases x with
  | nan => simp [nonFiniteName, Text.Visible]
  | infinity => simp [nonFiniteName, Text.Visible]
  | negativeInfinity => simp [nonFiniteName, Text.Visible]

/-- A simple value is a word, whose characters are all seen, or a number. -/
theorem readSimple_cases {v : Json α} (h : readSimple dialect s = .ok (v, r)) :
    (∃ word, word ≠ [] ∧ (∀ c ∈ word, Text.Visible c) ∧ word ++ r = s) ∨
      ∃ p, readParts? s = some (p, r) := by
  unfold readSimple at h
  split at h
  · next hw =>
    cases h
    obtain ⟨word, hmem, happ⟩ := exists_word_of_readWord? hw
    obtain ⟨hne, hv⟩ := visible_words _ hmem
    exact .inl ⟨word, hne, hv, happ⟩
  split at h
  · next name _ hx =>
    split at h
    · cases h
      obtain ⟨hne, hv⟩ := visible_nonFiniteName name
      exact .inl ⟨_, hne, hv, readNonFinite?_append hx⟩
    · cases h
  · obtain ⟨p, -, hp, -⟩ := exists_parts_of_readNumber h
    exact .inr ⟨p, hp⟩

end Steps

/-! ## What is left -/

/-- A text is what reading leaves of another one: its end, behind a character that is seen. -/
def Leaves (s r : List Char) : Prop := ∃ c, Text.Visible c ∧ c :: r <:+ s

theorem Leaves.suffix {s r : List Char} (h : Leaves s r) : r <:+ s := by
  obtain ⟨c, -, hs⟩ := h
  exact (List.suffix_cons c r).trans hs

theorem Leaves.of_suffix {s s' r : List Char} (h : Leaves s r) (hs : s <:+ s') : Leaves s' r := by
  obtain ⟨c, hc, hr⟩ := h
  exact ⟨c, hc, hr.trans hs⟩

theorem Leaves.behind {s r : List Char} {c : Char} (h : Leaves s r) : Leaves (c :: s) r :=
  h.of_suffix (List.suffix_cons c s)

theorem skipSpace_suffix (s : List Char) : skipSpace s <:+ s := List.dropWhile_suffix _

theorem leaves_of_skipSpace {s r : List Char} {c : Char} (hc : Text.Visible c)
    (h : skipSpace s = c :: r) : Leaves s r := ⟨c, hc, h ▸ skipSpace_suffix s⟩

/-- A word leaves what is behind its last letter. -/
theorem leaves_word {word r : List Char} (hne : word ≠ []) (hv : ∀ c ∈ word, Text.Visible c) :
    Leaves (word ++ r) r := by
  obtain ⟨t, c, hc⟩ := (List.eq_nil_or_concat word).resolve_left hne
  rw [List.concat_eq_append] at hc
  subst hc
  exact ⟨c, hv c (by simp), t, by simp⟩

/-- A string leaves what is behind its quote. -/
theorem leaves_readString {start : Nat} {pending : Option Nat} {s t r : List Char}
    (h : readString start pending s = .ok (t, r)) : Leaves s r := by
  induction hn : s.length using Nat.strongRecOn generalizing s pending t with
  | ind n ih =>
    -- every branch that goes on reads a shorter text and puts something in front of what it reads
    have hmap : ∀ {s' : List Char} {p : Option Nat} (f : List Char → List Char), s'.length < n →
        (readString start p s').map (fun q => (f q.1, q.2)) = .ok (t, r) → Leaves s' r := by
      intro s' p f hl hr
      obtain ⟨⟨t', r'⟩, hq, he⟩ := map_eq_ok.mp hr
      cases he
      exact ih _ hl hq rfl
    cases s with
    | nil =>
      rw [readString.eq_def] at h
      cases h
    | cons c s₁ =>
      rw [readString.eq_def] at h
      rw [List.length_cons] at hn
      dsimp only at h
      split at h
      · next hc =>
        subst hc
        cases h
        exact ⟨'"', by decide, List.suffix_rfl⟩
      split at h
      · split at h
        · cases h
        split at h
        · split at h
          · split at h
            · cases h
            split at h
            · cases h
            · refine (hmap _ ?_ h).of_suffix ⟨[_, _, _, _, _, _], rfl⟩
              simp only [List.length_cons] at hn
              omega
          · cases h
        · split at h
          · cases h
          · refine (hmap (pendingText pending ++ _ :: ·) ?_ h).of_suffix ⟨[_, _], rfl⟩
            rw [List.length_cons] at hn
            omega
      split at h
      · cases h
      · exact (hmap (pendingText pending ++ c :: ·) (by omega) h).behind

/-- Digits leave what is behind the last of them. -/
theorem leaves_spanDigits {s : List Char} (h : (spanDigits s).1 ≠ []) :
    Leaves s (spanDigits s).2 := by
  have hspan : (spanDigits s).1 ++ (spanDigits s).2 = s := List.takeWhile_append_dropWhile
  have hdigits := List.all_eq_true.mp (List.all_takeWhile : (spanDigits s).1.all _ = true)
  have hleaves := leaves_word (r := (spanDigits s).2) h fun c hc =>
    Text.visible_of_isDigit (hdigits c hc)
  rwa [hspan] at hleaves

theorem leaves_readWhole? {s r w : List Char} (h : readWhole? s = some (w, r)) : Leaves s r := by
  unfold readWhole? at h
  split at h
  · cases h
  next c t =>
  split at h
  · next hc =>
    subst hc
    cases h
    exact ⟨'0', by decide, List.suffix_rfl⟩
  split at h
  · next hc =>
    cases h
    refine leaves_spanDigits ?_
    unfold spanDigits
    simp [hc]
  · cases h

/-- Behind what was read a fraction and a power of ten may be read, or nothing. -/
theorem Leaves.readFraction {s₀ s : List Char} (h : Leaves s₀ s) :
    Leaves s₀ (Json.readFraction s).2 := by
  unfold Json.readFraction
  split
  · exact h
  · dsimp only
    split
    · next hd => exact ((leaves_spanDigits hd.2).behind).of_suffix h.suffix
    · exact h

theorem powerSign_suffix (s : List Char) : (powerSign s).2 <:+ s := by
  unfold powerSign
  split
  · exact List.suffix_rfl
  · split
    · exact List.suffix_cons _ _
    · split
      · exact List.suffix_cons _ _
      · exact List.suffix_rfl

theorem Leaves.readPower {s₀ s : List Char} (h : Leaves s₀ s) :
    Leaves s₀ (Json.readPower s).2 := by
  cases s with
  | nil => exact h
  | cons c s =>
    rw [readPower_cons]
    split
    · split
      · exact h
      · next hd =>
        exact ((leaves_spanDigits hd).of_suffix (powerSign_suffix s)).behind.of_suffix h.suffix
    · exact h

theorem numberSign_suffix (s : List Char) : (numberSign s).2 <:+ s := by
  unfold numberSign
  split
  · exact List.suffix_rfl
  · split
    · exact List.suffix_cons _ _
    · exact List.suffix_rfl

theorem leaves_readParts? {s r : List Char} {p : NumberParts} (h : readParts? s = some (p, r)) :
    Leaves s r := by
  rw [readParts?_eq] at h
  obtain ⟨⟨w, s₂⟩, hw, he⟩ := Option.map_eq_some_iff.mp h
  cases he
  exact (leaves_readWhole? hw).readFraction.readPower.of_suffix (numberSign_suffix s)

theorem leaves_readSimple {dialect : Dialect} {s r : List Char} {v : Json α}
    (h : readSimple dialect s = .ok (v, r)) : Leaves s r := by
  rcases readSimple_cases h with ⟨word, hne, hv, rfl⟩ | ⟨p, hp⟩
  · exact leaves_word hne hv
  · exact leaves_readParts? hp

theorem leaves_readers (dialect : Dialect) (fuel : Nat) :
    Reads (α := α) dialect (fun s r _ => Leaves s r) (fun s r _ => Leaves s r)
      (fun s r _ => Leaves s r) fuel := by
  have hbrace : Text.Visible '\x7d' := by decide
  have hbracket : Text.Visible ']' := by decide
  refine reads (fun fuel ih s r v h => ?_) (fun fuel ih s r ms h => ?_)
    (fun fuel ih s r vs h => ?_) fuel
  · obtain ⟨s₁, t, rfl, hs, -⟩ | ⟨s₁, rfl, hs, -⟩ | ⟨s₁, ms, rfl, hs, -⟩ | ⟨s₁, rfl, hs, -⟩ |
      ⟨s₁, items, rfl, hs, -⟩ | hs := readValue_cases h
    · exact (leaves_readString hs).behind
    · exact (leaves_of_skipSpace hbrace hs).behind
    · exact ((ih.members _ _ _ hs).of_suffix (skipSpace_suffix _)).behind
    · exact (leaves_of_skipSpace hbracket hs).behind
    · exact ((ih.items _ _ _ hs).of_suffix (skipSpace_suffix _)).behind
    · exact leaves_readSimple hs
  · obtain ⟨s₁, name, s₂, s₃, v, s₄, rfl, hname, hcolon, hv, hrest⟩ := readMembers_cases h
    -- from the name over the colon to the value, each text is the end of the one before
    have h₂ : s₂ <:+ '"' :: s₁ := (leaves_readString hname).behind.suffix
    have h₃ : s₃ <:+ s₂ := (leaves_of_skipSpace (by decide) hcolon).suffix
    have h₄ : s₄ <:+ '"' :: s₁ := ((ih.value _ _ _ hv).suffix.trans (skipSpace_suffix _)).trans
      (h₃.trans h₂)
    obtain ⟨hs, -⟩ | ⟨s₅, rest, hs, hms, -⟩ := hrest
    · exact (leaves_of_skipSpace hbrace hs).of_suffix h₄
    · have h₅ : s₅ <:+ s₄ := (leaves_of_skipSpace (by decide) hs).suffix
      exact (ih.members _ _ _ hms).of_suffix ((skipSpace_suffix _).trans (h₅.trans h₄))
  · obtain ⟨v, s₁, hv, hrest⟩ := readItems_cases h
    have h₁ : s₁ <:+ s := (ih.value _ _ _ hv).suffix
    obtain ⟨hs, -⟩ | ⟨s₂, rest, hs, hitems, -⟩ := hrest
    · exact (leaves_of_skipSpace hbracket hs).of_suffix h₁
    · have h₂ : s₂ <:+ s₁ := (leaves_of_skipSpace (by decide) hs).suffix
      exact (ih.items _ _ _ hitems).of_suffix ((skipSpace_suffix _).trans (h₂.trans h₁))

/-- **What is left is the end of the text**, behind a character that is seen. -/
theorem leaves_read {dialect : Dialect} {s r : List Char} {v : Json α}
    (h : read dialect s = .ok (v, r)) : Leaves s r :=
  (leaves_readers _ _).value _ _ _ h

/-! ## What a value starts with -/

/-- The text starts with a character that is seen. -/
def StartsVisibly (s : List Char) : Prop := ∃ c, s.head? = some c ∧ Text.Visible c

theorem startsVisibly_readWhole? {s r w : List Char} (h : readWhole? s = some (w, r)) :
    StartsVisibly s := by
  unfold readWhole? at h
  split at h
  · cases h
  split at h
  · next hc => exact ⟨'0', by rw [hc]; rfl, by decide⟩
  split at h
  · next hc => exact ⟨_, rfl, Text.visible_of_isDigit hc⟩
  · cases h

theorem startsVisibly_readParts? {s r : List Char} {p : NumberParts}
    (h : readParts? s = some (p, r)) : StartsVisibly s := by
  rw [readParts?_eq] at h
  obtain ⟨⟨w, s₂⟩, hw, -⟩ := Option.map_eq_some_iff.mp h
  have hstart := startsVisibly_readWhole? hw
  cases s with
  | nil => exact hstart
  | cons c s =>
    by_cases hc : c = '-'
    · exact ⟨c, rfl, by rw [hc]; decide⟩
    · simpa [numberSign, hc] using hstart

theorem startsVisibly_readSimple {dialect : Dialect} {s r : List Char} {v : Json α}
    (h : readSimple dialect s = .ok (v, r)) : StartsVisibly s := by
  rcases readSimple_cases h with ⟨word, hne, hv, rfl⟩ | ⟨p, hp⟩
  · obtain ⟨c, t, rfl⟩ := List.exists_cons_of_ne_nil hne
    exact ⟨c, rfl, hv c List.mem_cons_self⟩
  · exact startsVisibly_readParts? hp

/-- **A value starts with a character that is seen.** -/
theorem startsVisibly_read {dialect : Dialect} {s r : List Char} {v : Json α}
    (h : read dialect s = .ok (v, r)) : StartsVisibly s := by
  obtain ⟨s₁, t, rfl, -⟩ | ⟨s₁, rfl, -⟩ | ⟨s₁, ms, rfl, -⟩ | ⟨s₁, rfl, -⟩ |
    ⟨s₁, items, rfl, -⟩ | hs := readValue_cases h
  · exact ⟨'"', rfl, by decide⟩
  · exact ⟨'\x7b', rfl, by decide⟩
  · exact ⟨'\x7b', rfl, by decide⟩
  · exact ⟨'[', rfl, by decide⟩
  · exact ⟨'[', rfl, by decide⟩
  · exact startsVisibly_readSimple hs

/-! ## What the strict reader gives -/

theorem inRange_words : ∀ p ∈ words (α := α), p.2.InRange := by
  simp [words, InRange, NumberInRange, Every]

/-- The strict reader refuses the numbers that are out of range. -/
theorem inRange_numberValue {p : NumberParts} {numeral : List Char} {v : Json α}
    (h : numberValue .strict p numeral = .ok v) : v.InRange := by
  unfold numberValue at h
  dsimp only at h
  split at h
  · split at h
    · cases h
    · split at h
      · cases h
      · next hsome =>
        cases h
        simp only [true_and, Option.isNone_iff_eq_none] at hsome
        exact Option.isSome_iff_ne_none.mpr hsome
  · split at h
    · cases h
    · cases h
      trivial

theorem inRange_readSimple {s r : List Char} {v : Json α}
    (h : readSimple .strict s = .ok (v, r)) : v.InRange := by
  unfold readSimple at h
  split at h
  · next hw =>
    cases h
    obtain ⟨word, hmem, -⟩ := exists_word_of_readWord? hw
    exact inRange_words _ hmem
  split at h
  · split at h
    · next heq _ => cases heq
    · cases h
  · obtain ⟨p, numeral, -, hv⟩ := exists_parts_of_readNumber h
    exact inRange_numberValue hv

/-- **All that is read strictly is in range**: a value, the members of an object and the items of
    an array. -/
theorem inRange_readers (fuel : Nat) :
    Reads (α := α) .strict (fun _ _ v => v.InRange)
      (fun _ _ ms => EveryMember NumberInRange List.Nodup ms)
      (fun _ _ vs => EveryItem NumberInRange List.Nodup vs) fuel := by
  refine reads (fun fuel ih s r v h => ?_) (fun fuel ih s r ms h => ?_)
    (fun fuel ih s r vs h => ?_) fuel
  · obtain ⟨s₁, t, -, -, rfl⟩ | ⟨s₁, -, -, rfl⟩ | ⟨s₁, ms, -, hs, rfl⟩ | ⟨s₁, -, -, rfl⟩ |
      ⟨s₁, items, -, hs, rfl⟩ | hs := readValue_cases h
    · trivial
    · exact ⟨List.nodup_nil, trivial⟩
    · exact ⟨Fields.nodup_keys_ofPairs _,
        everyMember_update everyMember_nil (ih.members _ _ _ hs)⟩
    · trivial
    · exact ih.items _ _ _ hs
    · exact inRange_readSimple hs
  · obtain ⟨s₁, name, s₂, s₃, v, s₄, -, -, -, hv, hrest⟩ := readMembers_cases h
    obtain ⟨-, rfl⟩ | ⟨s₅, rest, -, hms, rfl⟩ := hrest
    · exact ⟨ih.value _ _ _ hv, trivial⟩
    · exact ⟨ih.value _ _ _ hv, ih.members _ _ _ hms⟩
  · obtain ⟨v, s₁, hv, hrest⟩ := readItems_cases h
    obtain ⟨-, rfl⟩ | ⟨s₂, rest, -, hitems, rfl⟩ := hrest
    · exact ⟨ih.value _ _ _ hv, trivial⟩
    · exact ⟨ih.value _ _ _ hv, ih.items _ _ _ hitems⟩

theorem inRange_read {s r : List Char} {v : Json α} (h : read .strict s = .ok (v, r)) :
    v.InRange :=
  (inRange_readers _).value _ _ _ h

theorem inRange_readAll {s : List Char} {v : Json α} (h : readAll .strict s = .ok v) :
    v.InRange := by
  unfold readAll at h
  split at h
  · cases h
  · next hr =>
    split at h
    · cases h
      exact inRange_read hr
    · cases h

end Json
end SceneScript
