import SceneScript.Proofs.Json.Strict
import SceneScript.Proofs.Script.WrittenPicture

/-!
# What was read can be written

Texts that were read from a line are pieces of it, cut at marks and trimmed. So they are clean, and
**whatever a line without a line break says can be written to such a line again**
(`rewritable_read?`). Only names and values of JSON can hold more than a line can, since JSON has
escapes for it.
-/

set_option autoImplicit false

namespace SceneScript
namespace Statement

open Outcome (bind_eq_ok map_eq_ok mapError_eq_ok)
open Parameters (Piece Storable transformName)
open Script (FreeParams)
open Text (Clean Unbroken)

variable {α : Type}

/-- The texts of a statement can stand in a line, and its payload is in range. -/
def Rewritable [Scalar α] : Statement α → Prop
  | .setTransform target payload _ ease => Clean target.toList ∧ target ≠ "" ∧
      (∀ name, ease = some name → Clean name.toList) ∧ (Json.obj payload).InRange
  | .changeFigure target path payload _ params => Clean target.toList ∧ target ≠ "" ∧
      Clean path.toList ∧ FreeParams params ∧ (Json.obj payload).InRange
  | .changeBackground path payload params => Clean path.toList ∧ FreeParams params ∧
      (Json.obj payload).InRange

/-! ## Parameters -/

section Parameters

variable {s : List Char} {tokens : List (List Char)}

/-- A parameter of a text can be written, unless it is a payload. -/
theorem storable_of_mem_fields (hs : Unbroken s) (h : ∀ t ∈ tokens, Piece s t)
    {p : String × String} (hp : p ∈ Parameters.fields tokens) (hne : p.1 ≠ transformName) :
    Storable p := by
  obtain ⟨⟨name, value⟩, he, hsome⟩ := List.mem_filterMap.mp (Fields.mem_of_mem_ofPairs hp)
  obtain ⟨t, ht, hentry⟩ := List.mem_map.mp he
  dsimp only at hsome
  split at hsome
  · cases hsome
  · next hname =>
    cases hsome
    have hstorable := Parameters.storable_of_piece hs (h t ht)
    rw [hentry] at hstorable
    refine hstorable (fun h0 => hname (List.isEmpty_iff.mpr h0)) fun ht => hne ?_
    dsimp only at ht ⊢
    rw [ht, String.ofList_toList]

theorem clean_of_get? (hs : Unbroken s) (h : ∀ t ∈ tokens, Piece s t) {name value : String}
    (hne : name ≠ transformName) (hv : (Parameters.fields tokens).get? name = some value) :
    Clean value.toList :=
  (storable_of_mem_fields hs h (Fields.mem_of_get? hv) hne).value

theorem freeParams_fields (hs : Unbroken s) (h : ∀ t ∈ tokens, Piece s t) :
    FreeParams (freeParams (Parameters.fields tokens)) where
  storable p hp := by
    have h1 := List.mem_filter.mp hp
    have h2 := List.mem_filter.mp h1.1
    exact storable_of_mem_fields hs h h2.1 (of_decide_eq_true h2.2)
  nodup := (Fields.nodup_keys_ofPairs _).sublist
    ((List.filter_sublist.trans List.filter_sublist).map _)
  notId hm := by
    obtain ⟨p, hp, hname⟩ := List.mem_map.mp hm
    exact of_decide_eq_true (List.mem_filter.mp hp).2 hname

theorem clean_target (hs : Unbroken s) (h : ∀ t ∈ tokens, Piece s t) {name : String}
    (hne : name ≠ transformName) :
    Clean (((Parameters.fields tokens).get? name).getD "").toList := by
  cases hv : (Parameters.fields tokens).get? name with
  | none => exact Text.clean_nil
  | some value => exact clean_of_get? hs h hne hv

end Parameters

/-! ## Payloads -/

variable [Scalar α]

theorem inRange_readPayload {value : List Char} {payload : Fields (Json α)}
    (h : readPayload value = .ok payload) : (Json.obj payload).InRange := by
  unfold readPayload at h
  split at h
  · cases h
  · next hr =>
    cases h
    exact Json.inRange_readAll hr
  · cases h

theorem inRange_lastPayload {entries : List (List Char × List Char)} {payload : Fields (Json α)}
    (h : lastPayload entries = .ok payload) : (Json.obj payload).InRange := by
  have hstart : (Json.obj ([] : Fields (Json α))).InRange := ⟨List.nodup_nil, trivial⟩
  unfold lastPayload at h
  generalize ([] : Fields (Json α)) = start at h hstart
  induction entries generalizing start with
  | nil =>
    cases h
    exact hstart
  | cons e entries ih =>
    rw [List.foldlM_cons] at h
    obtain ⟨next, hnext, h⟩ := bind_eq_ok.mp h
    refine ih next h ?_
    dsimp only at hnext
    split at hnext
    · exact inRange_readPayload hnext
    · cases hnext
      exact hstart

/-! ## Statements -/

/-- What a `setTransform` statement was read from: an object and parameters with a target. -/
theorem exists_of_readSetTransform {s : List Char} {st : Statement α}
    (h : readSetTransform s = .ok st) :
    ∃ members rest path tokens, Json.read .strict (Text.trimStart s) = .ok (.obj members, rest) ∧
      Parameters.split α rest = .ok (path, tokens) ∧
      ((Parameters.fields tokens).get? "target").getD "" ≠ "" ∧
      st = .setTransform (((Parameters.fields tokens).get? "target").getD "") members
        ((Parameters.fields tokens).get? "duration") ((Parameters.fields tokens).get? "ease") := by
  obtain ⟨⟨value, rest⟩, hread, h⟩ := bind_eq_ok.mp h
  replace hread := mapError_eq_ok.mp hread
  cases value with
  | null | bool | int | real | str | arr => cases h
  | obj members =>
  dsimp only [bind, Except.bind] at h
  split at h
  · cases h
  obtain ⟨⟨path, tokens⟩, hsplit, h⟩ := bind_eq_ok.mp h
  dsimp only at h
  split at h
  · cases h
  next hne =>
  cases h
  rw [String.isEmpty_iff] at hne
  exact ⟨members, rest, path, tokens, hread, mapError_eq_ok.mp hsplit, hne, rfl⟩

theorem rewritable_readSetTransform {s : List Char} (hs : Unbroken s) {st : Statement α}
    (h : readSetTransform s = .ok st) : st.Rewritable := by
  obtain ⟨members, rest, path, tokens, hread, hsplit, hne, rfl⟩ := exists_of_readSetTransform h
  have hrest : Unbroken rest :=
    hs.piece ((Json.leaves_read hread).suffix.trans (List.dropWhile_suffix _)).isInfix
  obtain ⟨-, htokens⟩ := Parameters.split_pieces hrest hsplit
  refine ⟨clean_target hrest htokens (by decide), hne, fun name hn => ?_, Json.inRange_read hread⟩
  exact clean_of_get? hrest htokens (by decide) hn

theorem rewritable_readChangeFigure {s : List Char} (hs : Unbroken s) {st : Statement α}
    (h : readChangeFigure s = .ok st) : st.Rewritable := by
  obtain ⟨⟨path, tokens⟩, hsplit, h⟩ := bind_eq_ok.mp h
  obtain ⟨payload, hpayload, h⟩ := bind_eq_ok.mp h
  cases h
  obtain ⟨hpath, htokens⟩ := Parameters.split_pieces hs (mapError_eq_ok.mp hsplit)
  have hothers : ∀ t ∈ tokens.filter (fun t => (anchor? t).isNone), Piece s t :=
    fun t ht => htokens t (List.mem_filter.mp ht).1
  refine ⟨?_, ?_, ?_, freeParams_fields hs hothers, inRange_lastPayload hpayload⟩
  · split
    · exact Text.clean_ofList (by decide)
    · exact clean_target hs hothers (by decide)
  · split
    · decide
    · next hne => rwa [String.isEmpty_iff] at hne
  · rw [String.toList_ofList]
    exact hpath

theorem rewritable_readChangeBackground {s : List Char} (hs : Unbroken s) {st : Statement α}
    (h : readChangeBackground s = .ok st) : st.Rewritable := by
  obtain ⟨⟨path, tokens⟩, hsplit, h⟩ := bind_eq_ok.mp h
  obtain ⟨payload, hpayload, h⟩ := bind_eq_ok.mp h
  cases h
  obtain ⟨hpath, htokens⟩ := Parameters.split_pieces hs (mapError_eq_ok.mp hsplit)
  refine ⟨?_, freeParams_fields hs htokens, inRange_lastPayload hpayload⟩
  rw [String.toList_ofList]
  exact hpath

theorem body_isPrefix (line : List Char) : Line.body line <+: line := by
  unfold Line.body
  split
  · exact (Text.trimEnd_isPrefix _).trans (List.dropLast_prefix line)
  · exact List.prefix_rfl

theorem infix_of_keyword? {body rest : List Char} {keyword : Keyword}
    (h : keyword? body = some (keyword, rest)) : rest <:+: body := by
  unfold keyword? at h
  split at h
  · cases h
  · next c r hr =>
    obtain ⟨k, -, he⟩ := Option.map_eq_some_iff.mp h
    cases he
    exact ((List.suffix_cons c rest).trans (hr ▸ List.dropWhile_suffix _)).isInfix

/-- **What is read from an unbroken line can be written to one.** -/
theorem rewritable_read? {line : List Char} (hl : Unbroken line) {st : Statement α}
    (h : read? line = .ok (some st)) : st.Rewritable := by
  have hrest : ∀ keyword rest, keyword? (Line.body line) = some (keyword, rest) →
      Unbroken rest := by
    intro keyword rest hk
    exact hl.piece ((infix_of_keyword? hk).trans (body_isPrefix line).isInfix)
  unfold read? at h
  split at h
  · cases h
  · next rest hk =>
    obtain ⟨s, hs, he⟩ := map_eq_ok.mp h
    cases he
    exact rewritable_readSetTransform (hrest _ _ hk) hs
  · next rest hk =>
    obtain ⟨s, hs, he⟩ := map_eq_ok.mp h
    cases he
    exact rewritable_readChangeFigure (hrest _ _ hk) hs
  · next rest hk =>
    obtain ⟨s, hs, he⟩ := map_eq_ok.mp h
    cases he
    exact rewritable_readChangeBackground (hrest _ _ hk) hs

end Statement
end SceneScript
