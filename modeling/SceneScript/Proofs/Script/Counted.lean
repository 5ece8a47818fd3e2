import SceneScript.Proofs.Script.Parameters

/-!
# The parameters that count

Parameters are given one behind the other, each a name, an equals sign and a value. Not all of them
are found again: the value of a `transform` parameter is read as JSON as far as it goes, and **a
parameter whose mark stands in that JSON is a part of that value**. With `"a` for the value of one
and `b"` for the value of the next, the two are one string. What is left are the parameters that
count (`counted`).

A line is split into a token for each of those (`split_written`). A token has the name of its
parameter, and its value too unless it is a `transform` parameter, whose value may have grown.
-/

set_option autoImplicit false

namespace SceneScript
namespace Parameters

open Json (NumberFault)
open Text (Unmarked mark trim Clean)

/-! ## Given parameters -/

/-- The text of a parameter, without its mark. The equals sign stands in it with an empty value
    too. -/
def pairText (p : String × String) : List Char := p.1.toList ++ '=' :: p.2.toList

/-- A parameter that can be given in a line. Its name may be any, `transform` included. -/
structure Given (p : String × String) : Prop where
  nonempty : p.1 ≠ ""
  noEquals : '=' ∉ p.1.toList
  name : Clean p.1.toList
  value : Clean p.2.toList

instance (p : String × String) : Decidable (Given p) :=
  decidable_of_iff (p.1 ≠ "" ∧ '=' ∉ p.1.toList ∧ Clean p.1.toList ∧ Clean p.2.toList)
    ⟨fun h => ⟨h.1, h.2.1, h.2.2.1, h.2.2.2⟩, fun h => ⟨h.nonempty, h.noEquals, h.name, h.value⟩⟩

/-- Parameters as they stand in a line. -/
def written (ps : List (String × String)) : List Char := marked (ps.map pairText)

theorem written_cons (p : String × String) (ps : List (String × String)) :
    written (p :: ps) = ' ' :: '-' :: (pairText p ++ written ps) :=
  marked_cons (pairText p) (ps.map pairText)

theorem follows_written (ps : List (String × String)) : Follows (written ps) :=
  follows_marked (ps.map pairText)

namespace Given

variable {p : String × String}

theorem unmarked (h : Given p) : Unmarked (pairText p) :=
  Text.unmarked_append_cons h.name.unmarked h.value.unmarked (by simp) (by simp)

theorem toList_ne_nil (h : Given p) : p.1.toList ≠ [] :=
  fun he => h.nonempty (String.toList_eq_nil_iff.mp he)

theorem entry_pairText (h : Given p) : entry (pairText p) = (p.1.toList, p.2.toList) :=
  entry_pair h.noEquals h.name.trimmed h.value.trimmed

theorem trimmed (h : Given p) : trim (pairText p) = pairText p := by
  refine Text.trimmed_append (Text.isBlank_head_of_trimmed h.name.trimmed) h.toList_ne_nil
    (fun c hc => ?_) (List.cons_ne_nil _ _)
  cases hv : p.2.toList with
  | nil =>
    rw [hv] at hc
    cases hc
    rfl
  | cons d r =>
    rw [hv, List.getLast?_cons_cons, ← hv] at hc
    exact Text.isBlank_getLast_of_trimmed h.value.trimmed c hc

/-- The name is found, whatever stands behind the parameter. -/
theorem entry_append (h : Given p) (behind : List Char) :
    (entry (trim (pairText p ++ behind))).1 = p.1.toList := by
  have htext : pairText p ++ behind = (p.1.toList ++ ['=']) ++ (p.2.toList ++ behind) := by
    simp [pairText]
  rw [htext]
  refine entry_of_opening h.noEquals h.name.trimmed (Text.prefix_trim_append ?_ ?_ (by simp) _)
  · intro c hc
    obtain ⟨d, r, hd⟩ := List.exists_cons_of_ne_nil h.toList_ne_nil
    rw [hd] at hc
    refine Text.isBlank_head_of_trimmed h.name.trimmed c ?_
    rw [hd]
    exact hc
  · intro c hc
    rw [List.getLast?_concat] at hc
    cases hc
    rfl

/-- Nothing behind a mark is left unsearched, except for a `transform` parameter. -/
theorem embeddedLength_pairText {α : Type} [Scalar α] {rest : List Char} (h : Given p)
    (hr : Follows rest) (hne : p.1 ≠ transformName) :
    embeddedLength α (pairText p ++ rest) = .ok 0 := by
  refine embeddedLength_of_not_opening fun ho => hne ?_
  have hname := entry_of_transformOpening (prefix_of_prefix_append (by decide) hr ho)
  rw [h.entry_pairText] at hname
  exact String.toList_inj.mp hname

end Given

/-! ## What counts -/

section Counted

variable (α : Type) [Scalar α]

/-- The parameters that count, of those whose text starts with `skip` characters of an earlier
    value. A parameter whose mark is among them belongs to that value. -/
def counted (skip : Nat) : List (String × String) → Except NumberFault (List (String × String))
  | [] => .ok []
  | p :: ps =>
    if 0 < skip then counted (skip - (mark ++ pairText p).length) ps
    else
      match embeddedLength α (pairText p ++ written ps) with
      | .error fault => .error fault
      | .ok n => (counted (n - (pairText p).length) ps).map (p :: ·)

end Counted

/-- A token that a parameter gives. -/
structure Gives (p : String × String) (token : List Char) : Prop where
  nonempty : p.1 ≠ ""
  name : (entry token).1 = p.1.toList
  value : p.1 ≠ transformName → (entry token).2 = p.2.toList

section Split

variable {α : Type} [Scalar α]

/-- A parameter gives its token with what belongs to its value, which is nothing where all of it is
    searched. -/
theorem Given.gives {p : String × String} {ps : List (String × String)} {n : Nat}
    {head : List Char} (h : Given p) (hn : embeddedLength α (pairText p ++ written ps) = .ok n)
    (hhead : n - (pairText p).length = 0 → head = []) : Gives p (trim (pairText p ++ head)) where
  nonempty := h.nonempty
  name := h.entry_append head
  value := by
    intro hne
    rw [h.embeddedLength_pairText (follows_written ps) hne] at hn
    cases hn
    rw [hhead (Nat.zero_sub _), List.append_nil, h.trimmed, h.entry_pairText]

/-- **The scan finds a token for every parameter that counts.** -/
theorem scan_written {ps : List (String × String)} (hps : ∀ p ∈ ps, Given p) :
    ∀ {skip : Nat} {cs : List (String × String)}, counted α skip ps = .ok cs →
      ∃ head tokens, scan α skip (written ps) = .ok (head, tokens) ∧ (skip = 0 → head = []) ∧
        List.Forall₂ Gives cs tokens := by
  induction ps with
  | nil =>
    intro skip cs h
    cases h
    exact ⟨[], [], by rw [scan.eq_def]; rfl, fun _ => rfl, .nil⟩
  | cons p ps ih =>
    obtain ⟨hp, hps⟩ := List.forall_mem_cons.mp hps
    intro skip cs h
    rw [counted] at h
    split at h
    -- the mark is not searched, and the parameter belongs to a value before it
    · next hskip =>
      obtain ⟨head, tokens, hscan, -, hgives⟩ := ih hps h
      have htail : Unmarked ('-' :: pairText p) :=
        (Text.unmarked_cons _ _).mpr ⟨fun hc => absurd hc.1 (by simp), hp.unmarked⟩
      have hrest : Unmarked ((mark ++ pairText p).drop skip) := by
        obtain ⟨k, rfl⟩ := Nat.exists_eq_add_of_lt hskip
        rw [Nat.zero_add]
        exact htail.piece (List.drop_suffix k _).isInfix
      refine ⟨mark ++ pairText p ++ head, tokens, ?_, fun h0 => absurd hskip (by omega), hgives⟩
      show scan α skip (mark ++ pairText p ++ written ps) = _
      rw [scan_into hrest (follows_written ps), hscan]
      rfl
    -- the mark is found, and what the value reaches over is not searched for another
    · next hskip =>
      obtain rfl : skip = 0 := Nat.eq_zero_of_not_pos hskip
      split at h
      · cases h
      · next n hn =>
        obtain ⟨cs, hc, rfl⟩ := Outcome.map_eq_ok.mp h
        obtain ⟨head, tokens, hscan, hhead, hgives⟩ := ih hps hc
        have hpiece : Unmarked ((pairText p).drop n) :=
          hp.unmarked.piece (List.drop_suffix n _).isInfix
        refine ⟨[], trim (pairText p ++ head) :: tokens, ?_, fun _ => rfl,
          .cons (hp.gives hn hhead) hgives⟩
        rw [written_cons, scan_mark, hn]
        dsimp only
        rw [scan_into hpiece (follows_written ps), hscan]
        rfl

/-- **A head and parameters behind it are split into the head and tokens of the parameters that
    count.** -/
theorem split_written {head : List Char} (hh : Unmarked head) {ps cs : List (String × String)}
    (hps : ∀ p ∈ ps, Given p) (hc : counted α 0 ps = .ok cs) :
    ∃ tokens, split α (head ++ written ps) = .ok (trim head, tokens) ∧
      List.Forall₂ Gives cs tokens := by
  obtain ⟨head', tokens, hscan, hhead, hgives⟩ := scan_written hps hc
  obtain rfl : head' = [] := hhead rfl
  refine ⟨tokens, ?_, hgives⟩
  unfold split
  rw [scan_append hh (follows_written ps), hscan]
  show Except.ok (trim (head ++ []), tokens) = _
  rw [List.append_nil]

end Split

/-! ## Values -/

/-- **The value of a token is that of the last parameter that counts**, of those with its name. -/
theorem get?_fields_of_gives {cs : List (String × String)} {tokens : List (List Char)}
    (h : List.Forall₂ Gives cs tokens) {name : String} (hne : name ≠ transformName) :
    (fields tokens).get? name = Fields.last? cs name := by
  unfold fields
  rw [Fields.get?_ofPairs]
  induction h with
  | nil => rfl
  | @cons p token cs tokens hp _ ih =>
    have hname : (entry token).1.isEmpty = false := by
      rw [hp.name, List.isEmpty_eq_false_iff, Ne, String.toList_eq_nil_iff]
      exact hp.nonempty
    rw [List.map_cons, List.filterMap_cons]
    dsimp only
    rw [hname, if_neg Bool.false_ne_true]
    dsimp only
    rw [Fields.last?_cons, Fields.last?_cons, ih, hp.name, String.ofList_toList]
    by_cases hpn : p.1 = name
    · rw [if_pos hpn, if_pos hpn, hp.value fun e => hne (hpn.symm.trans e), String.ofList_toList]
    · rw [if_neg hpn, if_neg hpn]

/-! ## The end of a line -/

theorem trimmed_pairText {ps : List (String × String)} (hps : ∀ p ∈ ps, Given p) :
    ∀ t ∈ ps.map pairText, trim t = t := by
  intro t ht
  obtain ⟨p, hp, rfl⟩ := List.mem_map.mp ht
  exact (hps p hp).trimmed

end Parameters
end SceneScript
