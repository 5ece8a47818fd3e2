import SceneScript.Proofs.Json.Strict
import SceneScript.Proofs.Script.Parameters

/-!
# Joining tokens and splitting them

What a line is written with is one kind of token; people type others. They put blanks before the
JSON of a `transform` parameter and inside it, line breaks too, and any JSON is read there, not only
an object. **Splitting undoes joining all the same** (`split_joined`): a list of tokens, each one
joinable, is given back token by token, whatever path stands before it.

A joinable token either has no mark in it, or its JSON is read from its first character to its last,
wherever a mark stands between. Both of these are characters that are seen, so trimming takes
nothing away from such a token, and what comes behind it starts with a space and does not prolong
the JSON (`Json.read_behind`).
-/

set_option autoImplicit false

namespace SceneScript
namespace Parameters

open Json (ReadError)
open Text (Unmarked trim trimStart isBlankText)

/-- The text is one JSON value, from its first character to its last. -/
def isValueText (α : Type) [Scalar α] (s : List Char) : Bool :=
  match (Json.read .strict s : Except ReadError (Json α × List Char)) with
  | .ok (_, behind) => behind.isEmpty
  | .error _ => false

/-- A token that can be joined with others: plain, or a `transform` parameter with blanks and then
    a text that is one JSON value. -/
inductive Joinable (α : Type) [Scalar α] : List Char → Prop
  | plain {token : List Char} (ht : trim token = token) (hu : Unmarked token)
    (hp : ¬ transformOpening <+: token) : Joinable α token
  | embedded {blanks json : List Char} (hb : isBlankText blanks = true)
    (hj : isValueText α json = true) : Joinable α (transformOpening ++ (blanks ++ json))

variable {α : Type} [Scalar α]

theorem exists_of_isValueText {s : List Char} (h : isValueText α s = true) :
    ∃ v : Json α, Json.read .strict s = .ok (v, []) := by
  unfold isValueText at h
  split at h
  · next v behind hread => exact ⟨v, by rw [hread, List.isEmpty_iff.mp h]⟩
  · cases h

section Value

variable {blanks json : List Char} {v : Json α} (hread : Json.read .strict json = .ok (v, []))

include hread

/-- Behind blanks a value is found, with whatever is behind it. -/
theorem trimStart_value (hb : isBlankText blanks = true) (rest : List Char) :
    trimStart (blanks ++ json ++ rest) = json ++ rest := by
  obtain ⟨c, hhead, hc⟩ := Json.startsVisibly_read hread
  obtain ⟨r, rfl⟩ := List.head?_eq_some_iff.mp hhead
  unfold trimStart
  rw [List.append_assoc, List.dropWhile_append_of_pos (List.all_eq_true.mp hb), List.cons_append,
    List.dropWhile_cons_of_neg (by simp [hc.isBlank])]

/-- **A value behind blanks is read in full**, marks in it included. -/
theorem whole_value (hb : isBlankText blanks = true) :
    Whole α (transformOpening ++ (blanks ++ json)) :=
  whole_of_read fun rest hr => ⟨trimStart_value hread hb rest, Json.read_behind hr.apart hread⟩

/-- A value ends in no blank. -/
theorem trimmed_value (blanks : List Char) :
    trim (transformOpening ++ (blanks ++ json)) = transformOpening ++ (blanks ++ json) := by
  obtain ⟨c, hc, t, rfl⟩ := Json.leaves_read hread
  refine Text.trim_of_ends (fun d hd => ?_) (fun d hd => ?_)
  · cases hd
    decide
  · rw [← List.append_assoc, ← List.append_assoc, List.getLast?_concat] at hd
    cases hd
    exact hc.isBlank

end Value

theorem Joinable.whole {token : List Char} (h : Joinable α token) :
    Whole α token ∧ trim token = token := by
  cases h with
  | plain ht hu hp => exact ⟨whole_of_unmarked hu hp, ht⟩
  | embedded hb hj =>
    obtain ⟨v, hread⟩ := exists_of_isValueText hj
    exact ⟨whole_value hread hb, trimmed_value hread _⟩

/-- **Splitting undoes joining.** Of joinable tokens with their marks the scan finds exactly the
    tokens, and behind a path that is trimmed and has no mark in it they are split into the path and
    the tokens. -/
theorem split_joined {tokens : List (List Char)} (h : ∀ token ∈ tokens, Joinable α token) :
    scan α 0 (marked tokens) = .ok ([], tokens) ∧
      ∀ path, trim path = path → Unmarked path →
        split α (path ++ marked tokens) = .ok (path, tokens) := by
  have hwhole : ∀ token ∈ tokens, Whole α token ∧ trim token = token :=
    fun token ht => (h token ht).whole
  exact ⟨scan_marked hwhole, fun path ht hu => split_whole ht hu hwhole⟩

/-- A path with a hyphen, an empty token, one that starts with the mark's hyphen, and JSON with
    marks in a string and before a number, blanks and a line break. -/
theorem split_joined_spaced :
    let json := "\x7b \"x\": -10, \"a -b\" :\n[ -1e2, \"c\\\" -d=\" ] \x7d".toList
    let tokens := ["id=a-b".toList, [], "-left".toList,
      transformOpening ++ ("\n \u00a0".toList ++ json), "transform".toList,
      transformOpening ++ ([] ++ "\" -e\"".toList)]
    let path := "a- b-c.png".toList
    (∀ token ∈ tokens, Joinable Float token) ∧ trim path = path ∧ Unmarked path ∧
      scan Float 0 (marked tokens) = .ok ([], tokens) ∧
      split Float (path ++ marked tokens) = .ok (path, tokens) := by
  -- the texts by their letters: what is decided below is decided on lists
  repeat rewrite [String.toList_ofList]
  intro json tokens path
  have hjoinable : ∀ token ∈ tokens, Joinable Float token := by
    simp only [tokens, List.forall_mem_cons]
    refine ⟨.plain ?_ ?_ ?_, .plain ?_ ?_ ?_, .plain ?_ ?_ ?_, .embedded ?_ ?_, .plain ?_ ?_ ?_,
      .embedded rfl ?_, List.forall_mem_nil _⟩
    all_goals decide
  obtain ⟨hscan, hsplit⟩ := split_joined hjoinable
  have ht : trim path = path := by decide
  have hu : Unmarked path := by decide
  exact ⟨hjoinable, ht, hu, hscan, hsplit path ht hu⟩

end Parameters
end SceneScript
