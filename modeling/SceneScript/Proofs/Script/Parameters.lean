import SceneScript.Proofs.Fields
import SceneScript.Proofs.Json.Behind
import SceneScript.Proofs.Json.ReadBack
import SceneScript.Proofs.Outcome
import SceneScript.Proofs.Text.Clean
import SceneScript.Script.Parameters

/-!
# Parameters, put together and taken apart

A line is a head and tokens with a mark before each. **Splitting it gives the head and the tokens
back** (`split_whole`), if no mark stands in the head and each token is *whole* (`Whole`): either no
mark stands in it, or it is a `transform` parameter whose value is read as JSON, and then marks
inside the JSON do not count. The tokens that are written are of that kind (`Standing`,
`split_marked`).

The other way round, whatever a text is split into, **the head and the tokens hold no mark, a
`transform` parameter apart** (`split_pieces`), so that their names and values can be written again.
-/

set_option autoImplicit false

namespace SceneScript
namespace Parameters

open Outcome (map_eq_ok)
open Text (Unmarked unmarked_cons mark trim Clean)

/-- Tokens with their marks. -/
def marked (tokens : List (List Char)) : List Char := tokens.flatMap fun token => mark ++ token

@[simp] theorem marked_nil : marked [] = [] := rfl

theorem marked_cons (token : List Char) (tokens : List (List Char)) :
    marked (token :: tokens) = ' ' :: '-' :: (token ++ marked tokens) := rfl

theorem marked_concat (tokens : List (List Char)) (token : List Char) :
    marked (tokens ++ [token]) = marked tokens ++ (mark ++ token) := by
  unfold marked
  rw [List.flatMap_append, List.flatMap_singleton]

/-- How a text goes on behind a token: with a space, or not at all. -/
def Follows (rest : List Char) : Prop := rest = [] ∨ ∃ r, rest = ' ' :: r

theorem follows_marked (tokens : List (List Char)) : Follows (marked tokens) := by
  cases tokens with
  | nil => exact .inl rfl
  | cons token tokens => exact .inr ⟨_, marked_cons token tokens⟩

theorem Follows.endsNumber {rest : List Char} (h : Follows rest) : Json.EndsNumber rest := by
  rcases h with rfl | ⟨r, rfl⟩
  · exact Json.endsNumber_nil
  · exact Json.endsNumber_cons (by decide)

theorem Follows.apart {rest : List Char} (h : Follows rest) : Json.Apart rest := by
  rcases h with rfl | ⟨r, rfl⟩
  · exact Json.apart_nil
  · exact Json.apart_cons (by decide) r

/-- What opens a `transform` parameter with a value. -/
def transformOpening : List Char := transformName.toList ++ ['=']

/-- A word without a space at the start of a token and what follows is at the start of the
    token. -/
theorem prefix_of_prefix_append {w token rest : List Char} (hw : ' ' ∉ w) (hr : Follows rest)
    (h : w <+: token ++ rest) : w <+: token := by
  rcases List.prefix_or_prefix_of_prefix h (List.prefix_append token rest) with h1 | ⟨u, rfl⟩
  · exact h1
  · cases u with
    | nil => rw [List.append_nil]
    | cons c u =>
      have hu : c :: u <+: rest := (List.prefix_append_right_inj token).mp h
      rcases hr with rfl | ⟨r, rfl⟩
      · exact absurd (List.prefix_nil.mp hu) (by simp)
      · obtain ⟨rfl, -⟩ := List.cons_prefix_cons.mp hu
        exact absurd (List.mem_append_right token List.mem_cons_self) hw

/-! ## Scanning what was written -/

variable {α : Type}

section Scan

variable [Scalar α]

theorem scan_cons {c : Char} {s : List Char} (h : ¬ (c = ' ' ∧ s.head? = some '-')) :
    scan α 0 (c :: s) = (scan α 0 s).map fun (head, tokens) => (c :: head, tokens) := by
  rw [scan.eq_def]
  dsimp only
  rw [if_neg (Nat.lt_irrefl 0)]
  cases s with
  | nil => rfl
  | cons d s =>
    dsimp only
    rw [if_neg fun hc => h ⟨hc.1, congrArg some hc.2⟩]

theorem scan_mark (s : List Char) :
    scan α 0 (' ' :: '-' :: s) =
      match embeddedLength α s with
      | .error fault => .error fault
      | .ok n => (scan α n s).map fun (token, tokens) => ([], trim token :: tokens) := by
  rw [scan.eq_def]
  dsimp only
  rw [if_neg (Nat.lt_irrefl 0)]
  rfl

/-- Text without a mark is passed over. -/
theorem scan_append {s rest : List Char} (hs : Unmarked s) (hr : Follows rest) :
    scan α 0 (s ++ rest) = (scan α 0 rest).map fun (head, tokens) => (s ++ head, tokens) := by
  induction s with
  | nil =>
    rw [List.nil_append]
    cases scan α 0 rest <;> rfl
  | cons c s ih =>
    obtain ⟨hc, hs'⟩ := (unmarked_cons c s).mp hs
    rw [List.cons_append, scan_cons, ih hs']
    · cases scan α 0 rest <;> rfl
    · rintro ⟨rfl, hd⟩
      refine hc ⟨rfl, ?_⟩
      cases s with
      | nil =>
        rcases hr with rfl | ⟨r, rfl⟩
        · cases hd
        · cases hd
      | cons d s => exact hd

/-- Text that is not to be searched is passed over, marks included. -/
theorem scan_skip (s : List Char) (k : Nat) (rest : List Char) :
    scan α (s.length + k) (s ++ rest) =
      (scan α k rest).map fun (head, tokens) => (s ++ head, tokens) := by
  induction s with
  | nil =>
    rw [List.nil_append, List.length_nil, Nat.zero_add]
    cases scan α k rest <;> rfl
  | cons c s ih =>
    have hk : (c :: s).length + k - 1 = s.length + k := by
      rw [List.length_cons]
      omega
    rw [List.cons_append, scan.eq_def]
    dsimp only
    rw [if_pos (by simp), hk, ih]
    cases scan α k rest <;> rfl

/-- A token is passed over if no mark stands in what of it is searched. What is not to be searched
    may reach beyond it. -/
theorem scan_into {s rest : List Char} {skip : Nat} (hs : Unmarked (s.drop skip))
    (hr : Follows rest) :
    scan α skip (s ++ rest) =
      (scan α (skip - s.length) rest).map fun (head, tokens) => (s ++ head, tokens) := by
  by_cases h : skip ≤ s.length
  · have hlen : skip = (s.take skip).length + 0 := by
      rw [List.length_take_of_le h]
      rfl
    rw [Nat.sub_eq_zero_of_le h]
    calc scan α skip (s ++ rest)
        = scan α ((s.take skip).length + 0) (s.take skip ++ (s.drop skip ++ rest)) := by
          rw [← hlen, ← List.append_assoc, List.take_append_drop]
      _ = (scan α 0 (s.drop skip ++ rest)).map fun (head, tokens) =>
            (s.take skip ++ head, tokens) := scan_skip _ 0 _
      _ = (scan α 0 rest).map fun (head, tokens) => (s ++ head, tokens) := by
          rw [scan_append hs hr]
          cases scan α 0 rest with
          | error e => rfl
          | ok p =>
            show Except.ok (s.take skip ++ (s.drop skip ++ p.1), p.2) = Except.ok (s ++ p.1, p.2)
            rw [← List.append_assoc, List.take_append_drop]
  · have hskip : skip = s.length + (skip - s.length) := by omega
    rw [hskip, scan_skip, Nat.add_sub_cancel_left]

theorem embeddedLength_of_not_opening {s : List Char} (h : ¬ transformOpening <+: s) :
    embeddedLength α s = .ok 0 := by
  unfold embeddedLength
  have hn : transformOpening.isPrefixOf? s = none := by
    cases hp : transformOpening.isPrefixOf? s with
    | none => rfl
    | some t =>
      rw [← List.isPrefixOf?_eq_some_iff_append_eq.mp hp] at h
      exact absurd (List.prefix_append _ _) h
  unfold transformOpening at hn
  rw [hn]

end Scan

section Whole

variable [Scalar α]

/-- What of the token is searched has no mark in it, whatever follows the token. -/
def Whole (α : Type) [Scalar α] (token : List Char) : Prop :=
  ∀ rest, Follows rest →
    ∃ n ≤ token.length, embeddedLength α (token ++ rest) = .ok n ∧ Unmarked (token.drop n)

/-- A token without a mark that is no `transform` parameter: the whole of it is searched. -/
theorem whole_of_unmarked {token : List Char} (hu : Unmarked token)
    (hp : ¬ transformOpening <+: token) : Whole α token := by
  intro rest hr
  have hp' : ¬ transformOpening <+: token ++ rest := fun h =>
    hp (prefix_of_prefix_append (by decide) hr h)
  exact ⟨0, Nat.zero_le _, embeddedLength_of_not_opening hp', hu⟩

/-- A `transform` parameter whose value is read in full, marks in it included: none of the token is
    searched. -/
theorem whole_of_read {value json : List Char} {v : Json α}
    (h : ∀ rest, Follows rest → Text.trimStart (value ++ rest) = json ++ rest ∧
      Json.read .strict (json ++ rest) = .ok (v, rest)) :
    Whole α (transformOpening ++ value) := by
  intro rest hr
  obtain ⟨hstart, hread⟩ := h rest hr
  have hopening : transformOpening.isPrefixOf? (transformOpening ++ value ++ rest) =
      some (value ++ rest) :=
    List.isPrefixOf?_eq_some_iff_append_eq.mpr (List.append_assoc ..).symm
  refine ⟨(transformOpening ++ value).length, Nat.le_refl _, ?_, ?_⟩
  · unfold embeddedLength
    unfold transformOpening at hopening ⊢
    rw [hopening]
    dsimp only
    rw [hstart, hread]
    refine congrArg Except.ok ?_
    rw [List.length_append, Nat.add_sub_cancel]
  · rw [List.drop_length]
    decide

/-- **A whole token is passed over as one.** -/
theorem scan_token {token rest : List Char} (h : Whole α token) (hr : Follows rest) :
    scan α 0 (' ' :: '-' :: (token ++ rest)) =
      (scan α 0 rest).map fun (head, tokens) => ([], trim (token ++ head) :: tokens) := by
  obtain ⟨n, hle, hn, hu⟩ := h rest hr
  rw [scan_mark, hn]
  dsimp only
  rw [scan_into hu hr, Nat.sub_eq_zero_of_le hle]
  cases scan α 0 rest <;> rfl

theorem scan_marked {tokens : List (List Char)}
    (h : ∀ token ∈ tokens, Whole α token ∧ trim token = token) :
    scan α 0 (marked tokens) = .ok ([], tokens) := by
  induction tokens with
  | nil => rfl
  | cons token tokens ih =>
    obtain ⟨hs, ht⟩ := h token List.mem_cons_self
    rw [marked_cons, scan_token hs (follows_marked tokens),
      ih fun x hx => h x (List.mem_cons_of_mem _ hx)]
    show Except.ok ([], trim (token ++ []) :: tokens) = _
    rw [List.append_nil, ht]

/-- **A head and whole tokens with marks are split into the head and the tokens.** -/
theorem split_whole {head : List Char} (ht : trim head = head) (hu : Unmarked head)
    {tokens : List (List Char)} (h : ∀ token ∈ tokens, Whole α token ∧ trim token = token) :
    split α (head ++ marked tokens) = .ok (head, tokens) := by
  unfold split
  rw [scan_append hu (follows_marked tokens), scan_marked h]
  show Except.ok (trim (head ++ []), tokens) = _
  rw [List.append_nil, ht]

end Whole

variable [WrittenScalar α]

/-- A token that stands on its own in a line: no mark is in it, or it is a `transform` parameter
    with JSON for its value. -/
def Standing (α : Type) [WrittenScalar α] (token : List Char) : Prop :=
  (Unmarked token ∧ ¬ transformOpening <+: token) ∨
    ∃ (members : Fields (Json α)) (text : List Char), (Json.obj members).InRange ∧
      Json.render (.obj members) = .ok text ∧ token = transformOpening ++ text

theorem trimmed_render_obj {members : Fields (Json α)} {text : List Char}
    (h : Json.render (.obj members) = .ok text) :
    ∃ t, text = '\x7b' :: (t ++ ['\x7d']) := by
  obtain ⟨t, -, rfl⟩ := map_eq_ok.mp h
  exact ⟨t, rfl⟩

theorem ne_nil_of_render_obj {members : Fields (Json α)} {text : List Char}
    (h : Json.render (.obj members) = .ok text) : text ≠ [] := by
  obtain ⟨t, rfl⟩ := trimmed_render_obj h
  exact List.cons_ne_nil _ _

section Standing

variable [Scalar.Readable α]

/-- **A standing token is whole.** -/
theorem Standing.whole {token : List Char} (h : Standing α token) : Whole α token := by
  rcases h with ⟨hu, hp⟩ | ⟨members, text, hv, ht, rfl⟩
  · exact whole_of_unmarked hu hp
  · obtain ⟨t, htext⟩ := trimmed_render_obj ht
    refine whole_of_read fun rest hr => ⟨?_, Json.read_render (.obj members) ht hv hr.endsNumber⟩
    rw [htext]
    rfl

/-- **A head and tokens with marks are split into the head and the tokens.** -/
theorem split_marked {head : List Char} (hh : Clean head) {tokens : List (List Char)}
    (h : ∀ token ∈ tokens, Standing α token ∧ trim token = token) :
    split α (head ++ marked tokens) = .ok (head, tokens) := by
  refine split_whole hh.trimmed hh.unmarked fun token ht => ?_
  obtain ⟨hs, htrim⟩ := h token ht
  exact ⟨hs.whole, htrim⟩

end Standing

/-! ## What a text is split into -/

section Pieces

variable {α : Type} [Scalar α]

/-- **What one character does**: it goes into the head, and where marks are searched for it then
    begins none, or it begins a mark, and a token stands behind it. -/
theorem scan_cons_cases {c : Char} {s : List Char} {skip : Nat} {head : List Char}
    {tokens : List (List Char)} (h : scan α skip (c :: s) = .ok (head, tokens)) :
    (∃ k head', scan α k s = .ok (head', tokens) ∧ head = c :: head' ∧
      (skip = 0 → k = 0 ∧ ¬ (c = ' ' ∧ s.head? = some '-'))) ∨
    (c = ' ' ∧ head = [] ∧ ∃ s' k token tokens', s = '-' :: s' ∧
      embeddedLength α s' = .ok k ∧ scan α k s' = .ok (token, tokens') ∧
      tokens = trim token :: tokens') := by
  by_cases hk : 0 < skip
  · rw [scan.eq_def] at h
    dsimp only at h
    rw [if_pos hk] at h
    obtain ⟨⟨head', tokens'⟩, h1, h2⟩ := map_eq_ok.mp h
    cases h2
    exact .inl ⟨_, head', h1, rfl, fun h0 => absurd h0 (Nat.pos_iff_ne_zero.mp hk)⟩
  · obtain rfl : skip = 0 := by omega
    by_cases hm : c = ' ' ∧ s.head? = some '-'
    · obtain ⟨rfl, hd⟩ := hm
      obtain ⟨s, rfl⟩ := List.head?_eq_some_iff.mp hd
      rw [scan_mark] at h
      cases he : embeddedLength α s with
      | error fault =>
        rw [he] at h
        cases h
      | ok k =>
        rw [he] at h
        obtain ⟨⟨token, tokens'⟩, h1, h2⟩ := map_eq_ok.mp h
        cases h2
        exact .inr ⟨rfl, rfl, s, k, token, tokens', rfl, he, h1, rfl⟩
    · rw [scan_cons hm] at h
      obtain ⟨⟨head', tokens'⟩, h1, h2⟩ := map_eq_ok.mp h
      cases h2
      exact .inl ⟨0, head', h1, rfl, fun _ => ⟨rfl, hm⟩⟩

/-- A head that the scan finds has every word without a space that the text starts with. -/
theorem prefix_head_of_scan {w s : List Char} (hw : ' ' ∉ w) {skip : Nat} {head : List Char}
    {tokens : List (List Char)} (h : scan α skip (w ++ s) = .ok (head, tokens)) : w <+: head := by
  induction w generalizing skip head with
  | nil => exact List.nil_prefix
  | cons c w ih =>
    rw [List.mem_cons, not_or] at hw
    obtain ⟨k, head', h1, rfl, -⟩ | ⟨rfl, -⟩ := scan_cons_cases h
    · exact List.cons_prefix_cons.mpr ⟨rfl, ih hw.2 h1⟩
    · exact absurd rfl hw.1

/-- What is known of a token that a text was split into. -/
def Piece (s token : List Char) : Prop :=
  token <:+: s ∧ trim token = token ∧ (Unmarked token ∨ transformOpening <+: token)

theorem Piece.mono {s s' token : List Char} (h : Piece s token) (hs : s <:+: s') :
    Piece s' token := ⟨h.1.trans hs, h.2⟩

/-- A token that starts a `transform` parameter still does once it is trimmed. -/
theorem transformOpening_prefix_trim {token : List Char} (h : transformOpening <+: token) :
    transformOpening <+: trim token := by
  obtain ⟨t, rfl⟩ := h
  refine Text.prefix_trim_append ?_ ?_ (by decide) t
  · intro c hc
    cases hc
    decide
  · intro c hc
    cases hc
    decide

/-- **What a text is split into**: the head is its start, without a mark where marks were searched
    for, and every token is a piece of it. -/
theorem scan_pieces (s : List Char) {skip : Nat} {head : List Char} {tokens : List (List Char)}
    (h : scan α skip s = .ok (head, tokens)) :
    head <+: s ∧ (skip = 0 → Unmarked head) ∧ ∀ token ∈ tokens, Piece s token := by
  induction hn : s.length using Nat.strongRecOn generalizing s skip head tokens with
  | ind n ih =>
    cases s with
    | nil =>
      rw [scan.eq_def] at h
      cases h
      exact ⟨List.prefix_rfl, fun _ => by decide, fun _ h => nomatch h⟩
    | cons c s =>
      rw [List.length_cons] at hn
      obtain ⟨k, head', h1, rfl, hsearched⟩ | ⟨rfl, rfl, s, k, token, tokens, rfl, he, h1, rfl⟩ :=
        scan_cons_cases h
      · obtain ⟨hp, hu, ht⟩ := ih s.length (by omega) s h1 rfl
        refine ⟨List.cons_prefix_cons.mpr ⟨rfl, hp⟩, fun h0 => ?_,
          fun token hm => (ht token hm).mono (List.suffix_cons c s).isInfix⟩
        obtain ⟨hk, hm⟩ := hsearched h0
        refine (unmarked_cons c head').mpr ⟨fun hc => hm ⟨hc.1, ?_⟩, hu hk⟩
        obtain ⟨r, rfl⟩ := List.head?_eq_some_iff.mp hc.2
        obtain ⟨t, rfl⟩ := hp
        rfl
      -- a mark: the head ends, and a token begins
      · rw [List.length_cons] at hn
        obtain ⟨hp, hu, ht⟩ := ih s.length (by omega) s h1 rfl
        have hsuffix : s <:+: ' ' :: '-' :: s :=
          ((List.suffix_cons '-' s).trans (List.suffix_cons ' ' _)).isInfix
        refine ⟨List.nil_prefix, fun _ => by decide, fun x hx => ?_⟩
        rcases List.mem_cons.mp hx with rfl | hx
        · refine ⟨(Text.trim_isInfix token).trans (hp.isInfix.trans hsuffix),
            Text.trim_trim token, ?_⟩
          by_cases ho : transformOpening <+: s
          · obtain ⟨s', rfl⟩ := ho
            exact .inr (transformOpening_prefix_trim (prefix_head_of_scan (by decide) h1))
          · rw [embeddedLength_of_not_opening ho] at he
            cases he
            exact .inl ((hu rfl).piece (Text.trim_isInfix token))
        · exact (ht x hx).mono hsuffix

/-- **The head is clean, and every token is a piece.** -/
theorem split_pieces {s head : List Char} {tokens : List (List Char)} (hs : Text.Unbroken s)
    (h : split α s = .ok (head, tokens)) :
    Clean head ∧ ∀ token ∈ tokens, Piece s token := by
  obtain ⟨⟨head', tokens'⟩, h1, h2⟩ := map_eq_ok.mp h
  cases h2
  obtain ⟨hp, hu, ht⟩ := scan_pieces s h1
  refine ⟨⟨Text.trim_trim head', ?_, (hu rfl).piece (Text.trim_isInfix head')⟩, ht⟩
  exact hs.piece ((Text.trim_isInfix head').trans hp.isInfix)

end Pieces

/-! ## Names and values -/

theorem entry_bare {name : List Char} (h : '=' ∉ name) (ht : trim name = name) :
    entry name = (name, []) := by
  have hall : ∀ c ∈ name, (c != '=') = true := fun c hc => by
    rw [bne_iff_ne]
    rintro rfl
    exact h hc
  unfold entry
  rw [List.takeWhile_eq_self_iff.mpr hall, List.dropWhile_eq_nil_iff.mpr hall, ht]
  rfl

theorem entry_pair {name value : List Char} (h : '=' ∉ name) (hn : trim name = name)
    (hv : trim value = value) : entry (name ++ '=' :: value) = (name, value) := by
  have hall : ∀ c ∈ name, (c != '=') = true := fun c hc => by
    rw [bne_iff_ne]
    rintro rfl
    exact h hc
  unfold entry
  rw [List.takeWhile_append_of_pos hall, List.dropWhile_append_of_pos hall]
  have h1 : List.takeWhile (· != '=') ('=' :: value) = [] := rfl
  have h2 : List.dropWhile (· != '=') ('=' :: value) = '=' :: value := rfl
  rw [h1, h2, List.append_nil, hn, List.drop_one, List.tail_cons, hv]

/-- The name of a token has no equals sign, and name and value are cut out of the token. -/
theorem entry_spec (token : List Char) :
    '=' ∉ (entry token).1 ∧
      ∃ name value, name <:+: token ∧ value <:+: token ∧ entry token = (trim name, trim value) := by
  refine ⟨fun h => ?_, _, _, (List.takeWhile_prefix _).isInfix,
    ((List.drop_suffix 1 _).trans (List.dropWhile_suffix _)).isInfix, rfl⟩
  have hm := (Text.trim_isInfix _).subset h
  have := List.mem_takeWhile_imp hm
  exact absurd this (by decide)

/-- A token that starts with a name and an equals sign has the name. -/
theorem entry_of_opening {name token : List Char} (heq : '=' ∉ name) (ht : trim name = name)
    (h : name ++ ['='] <+: token) : (entry token).1 = name := by
  obtain ⟨t, rfl⟩ := h
  have hall : ∀ c ∈ name, (c != '=') = true := fun c hc => by
    rw [bne_iff_ne]
    rintro rfl
    exact heq hc
  have h1 : List.takeWhile (· != '=') (['='] ++ t) = [] := rfl
  unfold entry
  rw [List.append_assoc, List.takeWhile_append_of_pos hall, h1, List.append_nil, ht]

theorem entry_of_transformOpening {token : List Char} (h : transformOpening <+: token) :
    (entry token).1 = transformName.toList :=
  entry_of_opening (by decide) (by decide) h

/-! ## Parameters as tokens -/

/-- The token of a parameter. -/
def token (p : String × String) : List Char :=
  if p.2.isEmpty then p.1.toList else p.1.toList ++ '=' :: p.2.toList

/-- A parameter that its token gives back. -/
structure Named (p : String × String) : Prop where
  nonempty : p.1 ≠ ""
  noEquals : '=' ∉ p.1.toList
  trimmedName : trim p.1.toList = p.1.toList
  trimmedValue : trim p.2.toList = p.2.toList

theorem entry_token {p : String × String} (h : Named p) :
    entry (token p) = (p.1.toList, p.2.toList) := by
  unfold token
  split
  · next he =>
    rw [entry_bare h.noEquals h.trimmedName, String.isEmpty_iff.mp he]
    rfl
  · exact entry_pair h.noEquals h.trimmedName h.trimmedValue

/-- **The parameters of tokens are the parameters that the tokens are of.** -/
theorem fields_tokens {ps : List (String × String)} (h : ∀ p ∈ ps, Named p) :
    fields (ps.map token) = Fields.ofPairs ps := by
  unfold fields
  congr 1
  induction ps with
  | nil => rfl
  | cons p ps ih =>
    have hp := h p List.mem_cons_self
    have hne : p.1.toList.isEmpty = false := by
      rw [List.isEmpty_eq_false_iff, Ne, String.toList_eq_nil_iff]
      exact hp.nonempty
    rw [List.map_cons, List.map_cons, List.filterMap_cons, entry_token hp]
    dsimp only
    rw [hne, if_neg Bool.false_ne_true, ih fun x hx => h x (List.mem_cons_of_mem _ hx),
      String.ofList_toList, String.ofList_toList]

/-- A parameter that can stand in a line. -/
structure Storable (p : String × String) : Prop where
  nonempty : p.1 ≠ ""
  noEquals : '=' ∉ p.1.toList
  notTransform : p.1 ≠ transformName
  name : Clean p.1.toList
  value : Clean p.2.toList

theorem Storable.named {p : String × String} (h : Storable p) : Named p :=
  ⟨h.nonempty, h.noEquals, h.name.trimmed, h.value.trimmed⟩

theorem Storable.unmarked {p : String × String} (h : Storable p) : Unmarked (token p) := by
  unfold token
  split
  · exact h.name.unmarked
  · exact Text.unmarked_append_cons h.name.unmarked h.value.unmarked (by decide) (by decide)

theorem Storable.unbroken {p : String × String} (h : Storable p) : Text.Unbroken (token p) := by
  unfold token
  split
  · exact h.name.unbroken
  · exact (Text.unbroken_append _ _).mpr
      ⟨h.name.unbroken, (Text.unbroken_cons _ _).mpr ⟨by decide, h.value.unbroken⟩⟩

theorem Named.trimmed {p : String × String} (h : Named p) : trim (token p) = token p := by
  have hne : p.1.toList ≠ [] := fun he => h.nonempty (String.toList_eq_nil_iff.mp he)
  unfold token
  split
  · exact h.trimmedName
  · next he =>
    refine Text.trimmed_append (Text.isBlank_head_of_trimmed h.trimmedName) hne (fun c hc => ?_)
      (by simp)
    have hv : p.2.toList ≠ [] := fun hv =>
      he (String.isEmpty_iff.mpr (String.toList_eq_nil_iff.mp hv))
    obtain ⟨d, r, hd⟩ := List.exists_cons_of_ne_nil hv
    rw [hd, List.getLast?_cons_cons, ← hd] at hc
    exact Text.isBlank_getLast_of_trimmed h.trimmedValue c hc

/-- **A storable parameter stands on its own.** -/
theorem Storable.standing {p : String × String} (h : Storable p) :
    Standing α (token p) ∧ trim (token p) = token p := by
  refine ⟨.inl ⟨h.unmarked, fun hp => ?_⟩, h.named.trimmed⟩
  have hname := entry_of_transformOpening hp
  rw [entry_token h.named] at hname
  exact h.notTransform (String.toList_inj.mp hname)

/-- What is read of a piece can be stored again, unless it is a `transform` parameter. -/
theorem storable_of_piece {s t : List Char} (hs : Text.Unbroken s) (h : Piece s t)
    (hne : (entry t).1 ≠ []) (ht : (entry t).1 ≠ transformName.toList) :
    Storable (String.ofList (entry t).1, String.ofList (entry t).2) := by
  obtain ⟨hpiece, htrim, hu⟩ := h
  obtain ⟨heq, name, value, hn, hv, he⟩ := entry_spec t
  have hclean : Clean t :=
    ⟨htrim, hs.piece hpiece, hu.resolve_right fun hp => ht (entry_of_transformOpening hp)⟩
  refine ⟨fun h0 => hne (String.ofList_eq_empty_iff.mp h0), ?_, fun h0 => ht ?_, ?_, ?_⟩
  · rwa [String.toList_ofList]
  · rw [← h0, String.toList_ofList]
  · rw [String.toList_ofList, he]
    exact hclean.piece hn
  · rw [String.toList_ofList, he]
    exact hclean.piece hv

end Parameters
end SceneScript
