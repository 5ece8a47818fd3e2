import SceneScript.Json.Reader
import SceneScript.Proofs.Json.Number
import SceneScript.Proofs.Outcome

/-!
# What stands behind a text

The value at the start of a text is found without knowing where it ends, so it could depend on all
of the text. It does not on what is behind a space, or behind any other character that is not seen:
**with such a character and anything more behind it a text is read as before**, what was left is
left with more behind it, and a number that was refused still is (`settled_read`). A text that is
malformed can change, as its strings and brackets may be closed by what comes.

The induction is on the fuel. More text brings more of it, so the two sides have different fuel.
-/

set_option autoImplicit false

namespace SceneScript
namespace Json

/-- A text that starts with a character that is not seen, or no text. -/
def Apart (rest : List Char) : Prop := ∀ c ∈ rest.head?, ¬ Text.Visible c

theorem apart_nil : Apart [] := fun _ h => nomatch h

theorem apart_cons {c : Char} (h : ¬ Text.Visible c) (r : List Char) : Apart (c :: r) := by
  intro d hd
  cases hd
  exact h

theorem Apart.ne {c d : Char} {r : List Char} (h : Apart (c :: r)) (hd : Text.Visible d) :
    c ≠ d := by
  rintro rfl
  exact h c rfl hd

theorem Apart.isDigit {c : Char} {r : List Char} (h : Apart (c :: r)) : c.isDigit = false := by
  rw [← Bool.not_eq_true]
  exact fun hc => h c rfl (Text.visible_of_isDigit hc)

/-! ## Settled outcomes -/

/-- How reading a text comes out, and how it does with more behind the text: nothing is said of what
    is malformed, a number is refused once and for all, and what was read is left with more behind
    it. -/
inductive Settled {β : Type} (rest : List Char) :
    Except ReadError (β × List Char) → Except ReadError (β × List Char) → Prop
  | malformed {mistake : Mistake} {left : Nat} {y : Except ReadError (β × List Char)} :
    Settled rest (.error (.malformed mistake left)) y
  | refused {fault : NumberFault} : Settled rest (.error (.number fault)) (.error (.number fault))
  | found {b : β} {r : List Char} : Settled rest (.ok (b, r)) (.ok (b, r ++ rest))

namespace Settled

variable {β γ : Type} {rest : List Char} {x y : Except ReadError (β × List Char)}

theorem cases (h : Settled rest x y) :
    (∃ mistake left, x = .error (.malformed mistake left)) ∨
    (∃ fault, x = .error (.number fault) ∧ y = .error (.number fault)) ∨
    ∃ b r, x = .ok (b, r) ∧ y = .ok (b, r ++ rest) := by
  cases h with
  | malformed => exact .inl ⟨_, _, rfl⟩
  | refused => exact .inr (.inl ⟨_, rfl, rfl⟩)
  | found => exact .inr (.inr ⟨_, _, rfl, rfl⟩)

theorem map (h : Settled rest x y) (f : β → γ) :
    Settled rest (x.map fun p => (f p.1, p.2)) (y.map fun p => (f p.1, p.2)) := by
  cases h with
  | malformed => exact .malformed
  | refused => exact .refused
  | found => exact .found

/-- One reader goes on behind another: what the first one finds is left to the second. -/
theorem andThen {x' y' : Except ReadError (γ × List Char)} (h : Settled rest x y)
    (hx : ∀ e, x = .error e → x' = .error e) (hy : ∀ e, y = .error e → y' = .error e)
    (hfound : ∀ b r, x = .ok (b, r) → y = .ok (b, r ++ rest) → Settled rest x' y') :
    Settled rest x' y' := by
  cases h with
  | malformed =>
    rw [hx _ rfl]
    exact .malformed
  | refused =>
    rw [hx _ rfl, hy _ rfl]
    exact .refused
  | found => exact hfound _ _ rfl rfl

end Settled

/-! ## Space, words -/

/-- The text behind the space that a text starts with. -/
theorem skipSpace_behind {s r : List Char} {c : Char} (h : skipSpace s = c :: r)
    (rest : List Char) : skipSpace (s ++ rest) = c :: (r ++ rest) := by
  unfold skipSpace at h ⊢
  have hne : (s.dropWhile isSpace).isEmpty = false := by rw [h]; rfl
  rw [List.dropWhile_append, hne, h]
  rfl

section Apart

variable {rest : List Char}

/-- A word whose characters are all seen is at the start of the text itself. -/
theorem isPrefixOf?_behind (hr : Apart rest) {w : List Char}
    (hw : ∀ c ∈ w, Text.Visible c) (s : List Char) :
    w.isPrefixOf? (s ++ rest) = (w.isPrefixOf? s).map (· ++ rest) := by
  induction w generalizing s with
  | nil => rfl
  | cons c w ih =>
    obtain ⟨hc, hw⟩ := List.forall_mem_cons.mp hw
    cases s with
    | nil =>
      cases rest with
      | nil => rfl
      | cons d r =>
        have hne : (c == d) = false := beq_eq_false_iff_ne.mpr (hr.ne hc).symm
        simp [List.isPrefixOf?, hne]
    | cons d s =>
      by_cases hcd : c = d
      · simp [List.isPrefixOf?, hcd, ih hw]
      · simp [List.isPrefixOf?, hcd]

/-- The first word of a list that a text starts with. -/
theorem findSome?_behind {β γ : Type} (hr : Apart rest) {word : β → List Char} (value : β → γ)
    {ws : List β} (hw : ∀ w ∈ ws, ∀ c ∈ word w, Text.Visible c) (s : List Char) :
    ws.findSome? (fun w => ((word w).isPrefixOf? (s ++ rest)).map fun r => (value w, r)) =
      (ws.findSome? fun w => ((word w).isPrefixOf? s).map fun r => (value w, r)).map
        fun p => (p.1, p.2 ++ rest) := by
  induction ws with
  | nil => rfl
  | cons w ws ih =>
    obtain ⟨hw, hws⟩ := List.forall_mem_cons.mp hw
    rw [List.findSome?_cons, List.findSome?_cons, isPrefixOf?_behind hr hw]
    cases (word w).isPrefixOf? s with
    | none => exact ih hws
    | some r => rfl

theorem readWord?_behind {α : Type} (hr : Apart rest) (s : List Char) :
    readWord? (α := α) (s ++ rest) = (readWord? s).map fun p => (p.1, p.2 ++ rest) := by
  have hw : ∀ w ∈ (words : List (List Char × Json α)), ∀ c ∈ w.1, Text.Visible c := by
    simp [words, Text.Visible]
  exact findSome?_behind hr Prod.snd hw s

theorem readNonFinite?_behind (hr : Apart rest) (s : List Char) :
    readNonFinite? (s ++ rest) = (readNonFinite? s).map fun p => (p.1, p.2 ++ rest) := by
  have hw : ∀ x ∈ [NonFinite.nan, .infinity, .negativeInfinity],
      ∀ c ∈ (nonFiniteName x).toList, Text.Visible c := by
    intro x hx
    cases x <;> simp [nonFiniteName, Text.Visible]
  exact findSome?_behind hr id hw s

/-! ## Numbers -/

theorem spanDigits_behind (hr : Apart rest) (s : List Char) :
    spanDigits (s ++ rest) = ((spanDigits s).1, (spanDigits s).2 ++ rest) := by
  have hrest : rest.takeWhile Char.isDigit = [] ∧ rest.dropWhile Char.isDigit = rest := by
    cases rest with
    | nil => exact ⟨rfl, rfl⟩
    | cons c r => simp [hr.isDigit]
  induction s with
  | nil =>
    unfold spanDigits
    rw [List.nil_append, hrest.1, hrest.2]
    rfl
  | cons c s ih =>
    unfold spanDigits at ih ⊢
    obtain ⟨h1, h2⟩ := Prod.ext_iff.mp ih
    dsimp only at h1 h2
    by_cases hc : c.isDigit = true
    · simp [hc, h1, h2]
    · simp [hc]

theorem readWhole?_behind (hr : Apart rest) (s : List Char) :
    readWhole? (s ++ rest) = (readWhole? s).map fun p => (p.1, p.2 ++ rest) := by
  cases s with
  | nil =>
    cases rest with
    | nil => rfl
    | cons c r => simp [readWhole?, hr.isDigit, hr.ne (d := '0') (by decide)]
  | cons c s =>
    have hspan := spanDigits_behind hr (c :: s)
    rw [List.cons_append] at hspan ⊢
    unfold readWhole?
    dsimp only
    rw [hspan]
    split
    · rfl
    · split
      · rfl
      · rfl

theorem readFraction_behind (hr : Apart rest) (s : List Char) :
    readFraction (s ++ rest) = ((readFraction s).1, (readFraction s).2 ++ rest) := by
  cases s with
  | nil =>
    cases rest with
    | nil => rfl
    | cons c r => simp [readFraction, hr.ne (d := '.') (by decide)]
  | cons c s =>
    rw [List.cons_append]
    unfold readFraction
    dsimp only
    rw [spanDigits_behind hr]
    split
    · rfl
    · rfl

theorem powerSign_behind (hr : Apart rest) (s : List Char) :
    powerSign (s ++ rest) = ((powerSign s).1, (powerSign s).2 ++ rest) := by
  cases s with
  | nil =>
    cases rest with
    | nil => rfl
    | cons c r =>
      simp [powerSign, hr.ne (d := '-') (by decide), hr.ne (d := '+') (by decide)]
  | cons c s =>
    rw [List.cons_append]
    unfold powerSign
    dsimp only
    split
    · rfl
    · split
      · rfl
      · rfl

theorem readPower_behind (hr : Apart rest) (s : List Char) :
    readPower (s ++ rest) = ((readPower s).1, (readPower s).2 ++ rest) := by
  cases s with
  | nil =>
    cases rest with
    | nil => rfl
    | cons c r =>
      simp [readPower, hr.ne (d := 'e') (by decide), hr.ne (d := 'E') (by decide)]
  | cons c s =>
    rw [List.cons_append, readPower_cons, readPower_cons, powerSign_behind hr]
    dsimp only
    rw [spanDigits_behind hr]
    split
    · split
      · rfl
      · rfl
    · rfl

theorem numberSign_behind (hr : Apart rest) (s : List Char) :
    numberSign (s ++ rest) = ((numberSign s).1, (numberSign s).2 ++ rest) := by
  cases s with
  | nil =>
    cases rest with
    | nil => rfl
    | cons c r => simp [numberSign, hr.ne (d := '-') (by decide)]
  | cons c s =>
    rw [List.cons_append]
    unfold numberSign
    dsimp only
    split
    · rfl
    · rfl

theorem readParts?_behind (hr : Apart rest) (s : List Char) :
    readParts? (s ++ rest) = (readParts? s).map fun p => (p.1, p.2 ++ rest) := by
  rw [readParts?_eq, readParts?_eq, numberSign_behind hr]
  dsimp only
  rw [readWhole?_behind hr]
  cases readWhole? (numberSign s).2 with
  | none => rfl
  | some p =>
    dsimp only [Option.map_some]
    rw [readFraction_behind hr, readPower_behind hr]

variable {α : Type} [Scalar α]

theorem settled_readNumber (hr : Apart rest) (dialect : Dialect) (s : List Char) :
    Settled rest (readNumber (α := α) dialect s) (readNumber dialect (s ++ rest)) := by
  unfold readNumber
  rw [readParts?_behind hr]
  cases readParts? s with
  | none => exact .malformed
  | some p =>
    obtain ⟨p, r⟩ := p
    dsimp only [Option.map_some]
    have htake : (s ++ rest).take ((s ++ rest).length - (r ++ rest).length) =
        s.take (s.length - r.length) := by
      rw [List.length_append, List.length_append, Nat.add_sub_add_right,
        List.take_append_of_le_length (Nat.sub_le _ _)]
    rw [htake]
    cases numberValue (α := α) dialect p (s.take (s.length - r.length)) with
    | error fault => exact .refused
    | ok v => exact .found

theorem settled_readSimple (hr : Apart rest) (dialect : Dialect) (s : List Char) :
    Settled rest (readSimple (α := α) dialect s) (readSimple dialect (s ++ rest)) := by
  unfold readSimple
  rw [readWord?_behind hr, readNonFinite?_behind hr]
  cases readWord? (α := α) s with
  | some found => exact .found
  | none =>
    cases readNonFinite? s with
    | none => exact settled_readNumber hr dialect s
    | some p =>
      dsimp only [Option.map_none, Option.map_some]
      cases dialect with
      | strict => exact .refused
      | lenient =>
        cases Scalar.nonFinite? (α := α) p.1 with
        | none => exact .refused
        | some x => exact .found

end Apart

/-! ## Strings -/

/-- A string ends at its quote, whatever stands behind it. -/
theorem settled_readString (rest : List Char) (start start' : Nat) (pending : Option Nat)
    (s : List Char) :
    Settled rest (readString start pending s) (readString start' pending (s ++ rest)) := by
  induction hn : s.length using Nat.strongRecOn generalizing s pending with
  | ind n ih =>
    cases s with
    | nil =>
      rw [readString.eq_def]
      exact .malformed
    | cons c s =>
      rw [List.length_cons] at hn
      rw [List.cons_append, readString.eq_def start, readString.eq_def start']
      dsimp only
      by_cases hquote : c = '"'
      · rw [if_pos hquote, if_pos hquote]
        exact .found
      rw [if_neg hquote, if_neg hquote]
      by_cases hescape : c = '\\'
      · rw [if_pos hescape, if_pos hescape]
        cases s with
        | nil => exact .malformed
        | cons e s =>
          rw [List.length_cons] at hn
          rw [List.cons_append]
          dsimp only
          by_cases hunit : e = 'u'
          -- four digits, and something behind them
          · rw [if_pos hunit, if_pos hunit]
            rcases s with _ | ⟨h₁, _ | ⟨h₂, _ | ⟨h₃, _ | ⟨h₄, s⟩⟩⟩⟩
            · exact .malformed
            · exact .malformed
            · exact .malformed
            · exact .malformed
            · simp only [List.length_cons] at hn
              simp only [List.cons_append]
              cases hexValues? h₁ h₂ h₃ h₄ with
              | none => exact .malformed
              | some unit =>
                dsimp only
                by_cases hend : s.isEmpty = true
                · rw [if_pos hend]
                  exact .malformed
                · have hend' : ¬ (s ++ rest).isEmpty = true := by
                    rw [List.isEmpty_iff, List.append_eq_nil_iff, ← List.isEmpty_iff]
                    exact fun h => hend h.1
                  rw [if_neg hend, if_neg hend']
                  exact (ih s.length (by omega) _ s rfl).map _
          · rw [if_neg hunit, if_neg hunit]
            cases unescape? e with
            | none => exact .malformed
            | some d => exact (ih s.length (by omega) _ s rfl).map (pendingText pending ++ d :: ·)
      · rw [if_neg hescape, if_neg hescape]
        by_cases hcontrol : c.toNat < 0x20
        · rw [if_pos hcontrol]
          exact .malformed
        · rw [if_neg hcontrol, if_neg hcontrol]
          exact (ih s.length (by omega) _ s rfl).map (pendingText pending ++ c :: ·)

/-! ## Values -/

section Values

variable {α : Type} [Scalar α] {rest : List Char} {dialect : Dialect}

/-- What the readers give with some fuel is settled, however much more fuel there is. -/
structure SettledAt (α : Type) [Scalar α] (rest : List Char) (dialect : Dialect) (fuel : Nat) :
    Prop where
  value : ∀ more s, Settled rest (readValue (α := α) dialect fuel s)
    (readValue dialect (fuel + more) (s ++ rest))
  members : ∀ more s, Settled rest (readMembers (α := α) dialect fuel s)
    (readMembers dialect (fuel + more) (s ++ rest))
  items : ∀ more s, Settled rest (readItems (α := α) dialect fuel s)
    (readItems dialect (fuel + more) (s ++ rest))

variable {fuel : Nat}

/-- Nothing is read of no text. -/
theorem readValue_nil (fuel : Nat) :
    ∃ mistake left, readValue (α := α) dialect fuel [] = .error (.malformed mistake left) := by
  cases fuel with
  | zero => exact ⟨_, _, rfl⟩
  | succ fuel => exact ⟨_, _, rfl⟩

theorem readMembers_nil (fuel : Nat) :
    ∃ mistake left, readMembers (α := α) dialect fuel [] = .error (.malformed mistake left) := by
  cases fuel with
  | zero => exact ⟨_, _, rfl⟩
  | succ fuel => exact ⟨_, _, rfl⟩

theorem readItems_nil (fuel : Nat) :
    ∃ mistake left, readItems (α := α) dialect fuel [] = .error (.malformed mistake left) := by
  cases fuel with
  | zero => exact ⟨_, _, rfl⟩
  | succ fuel =>
    obtain ⟨mistake, left, h⟩ : ∃ mistake left,
        readValue (α := α) dialect fuel [] = .error (.malformed mistake left) := readValue_nil fuel
    exact ⟨mistake, left, by rw [readItems, h]⟩

/-- What is read behind a space: if there is only space, it is malformed, and else the space ends in
    the text itself. -/
theorem Settled.behind_space {β : Type} {f g : List Char → Except ReadError (β × List Char)}
    (hnil : ∃ mistake left, f [] = .error (.malformed mistake left))
    (h : ∀ s, Settled rest (f s) (g (s ++ rest))) (s : List Char) :
    Settled rest (f (skipSpace s)) (g (skipSpace (s ++ rest))) := by
  cases hs : skipSpace s with
  | nil =>
    obtain ⟨mistake, left, he⟩ := hnil
    rw [he]
    exact .malformed
  | cons c r =>
    rw [skipSpace_behind hs rest]
    exact h (c :: r)

theorem SettledAt.value_succ (hr : Apart rest) (h : SettledAt α rest dialect fuel) (more : Nat)
    (s : List Char) : Settled rest (readValue (α := α) dialect (fuel + 1) s)
      (readValue dialect (fuel + more + 1) (s ++ rest)) := by
  cases s with
  | nil => exact .malformed
  | cons c s =>
    have hsimple := settled_readSimple (α := α) hr dialect (c :: s)
    rw [List.cons_append] at hsimple ⊢
    rw [readValue, readValue]
    by_cases hquote : c = '"'
    · rw [if_pos hquote, if_pos hquote]
      refine (settled_readString rest (c :: s).length (c :: (s ++ rest)).length none s).andThen
        (fun e hx => by rw [hx]) (fun e hy => by rw [hy]) fun t r hx hy => ?_
      rw [hx, hy]
      exact .found
    rw [if_neg hquote, if_neg hquote]
    by_cases hbrace : c = '\x7b'
    · rw [if_pos hbrace, if_pos hbrace]
      cases hs : skipSpace s with
      | nil => exact .malformed
      | cons d r =>
        rw [skipSpace_behind hs rest]
        dsimp only
        by_cases hend : d = '\x7d'
        · rw [if_pos hend, if_pos hend]
          exact .found
        · rw [if_neg hend, if_neg hend]
          have hmembers := h.members more (d :: r)
          rw [List.cons_append] at hmembers
          refine hmembers.andThen (fun e hx => by rw [hx]) (fun e hy => by rw [hy])
            fun ms r' hx hy => ?_
          rw [hx, hy]
          exact .found
    rw [if_neg hbrace, if_neg hbrace]
    by_cases hbracket : c = '['
    · rw [if_pos hbracket, if_pos hbracket]
      cases hs : skipSpace s with
      | nil => exact .malformed
      | cons d r =>
        rw [skipSpace_behind hs rest]
        dsimp only
        by_cases hend : d = ']'
        · rw [if_pos hend, if_pos hend]
          exact .found
        · rw [if_neg hend, if_neg hend]
          have hitems := h.items more (d :: r)
          rw [List.cons_append] at hitems
          refine hitems.andThen (fun e hx => by rw [hx]) (fun e hy => by rw [hy])
            fun vs r' hx hy => ?_
          rw [hx, hy]
          exact .found
    · rw [if_neg hbracket, if_neg hbracket]
      exact hsimple

theorem SettledAt.members_succ (h : SettledAt α rest dialect fuel) (more : Nat) (s : List Char) :
    Settled rest (readMembers (α := α) dialect (fuel + 1) s)
      (readMembers dialect (fuel + more + 1) (s ++ rest)) := by
  cases s with
  | nil => exact .malformed
  | cons c s =>
    rw [List.cons_append, readMembers, readMembers]
    by_cases hquote : c ≠ '"'
    · rw [if_pos hquote]
      exact .malformed
    rw [if_neg hquote, if_neg hquote]
    refine (settled_readString rest (c :: s).length (c :: (s ++ rest)).length none s).andThen
      (fun e hx => by rw [hx]) (fun e hy => by rw [hy]) fun name r hx hy => ?_
    rw [hx, hy]
    dsimp only
    cases hs : skipSpace r with
    | nil => exact .malformed
    | cons d r =>
      rw [skipSpace_behind hs rest]
      dsimp only
      by_cases hcolon : d ≠ ':'
      · rw [if_pos hcolon]
        exact .malformed
      rw [if_neg hcolon, if_neg hcolon]
      refine (Settled.behind_space (readValue_nil fuel) (h.value more) r).andThen
        (fun e hx => by rw [hx]) (fun e hy => by rw [hy]) fun v r hx hy => ?_
      rw [hx, hy]
      dsimp only
      cases hs : skipSpace r with
      | nil => exact .malformed
      | cons d r =>
        rw [skipSpace_behind hs rest]
        dsimp only
        by_cases hend : d = '\x7d'
        · rw [if_pos hend, if_pos hend]
          exact .found
        rw [if_neg hend, if_neg hend]
        by_cases hcomma : d = ','
        · rw [if_pos hcomma, if_pos hcomma]
          refine (Settled.behind_space (readMembers_nil fuel) (h.members more) r).andThen
            (fun e hx => by rw [hx]) (fun e hy => by rw [hy]) fun ms r hx hy => ?_
          rw [hx, hy]
          exact .found
        · rw [if_neg hcomma]
          exact .malformed

theorem SettledAt.items_succ (h : SettledAt α rest dialect fuel) (more : Nat) (s : List Char) :
    Settled rest (readItems (α := α) dialect (fuel + 1) s)
      (readItems dialect (fuel + more + 1) (s ++ rest)) := by
  rw [readItems, readItems]
  refine (h.value more s).andThen (fun e hx => by rw [hx]) (fun e hy => by rw [hy])
    fun v r hx hy => ?_
  rw [hx, hy]
  dsimp only
  cases hs : skipSpace r with
  | nil => exact .malformed
  | cons d r =>
    rw [skipSpace_behind hs rest]
    dsimp only
    by_cases hend : d = ']'
    · rw [if_pos hend, if_pos hend]
      exact .found
    rw [if_neg hend, if_neg hend]
    by_cases hcomma : d = ','
    · rw [if_pos hcomma, if_pos hcomma]
      refine (Settled.behind_space (readItems_nil fuel) (h.items more) r).andThen
        (fun e hx => by rw [hx]) (fun e hy => by rw [hy]) fun vs r hx hy => ?_
      rw [hx, hy]
      exact .found
    · rw [if_neg hcomma]
      exact .malformed

/-- **Reading is settled**, with any fuel and more of it. -/
theorem settledAt (hr : Apart rest) (dialect : Dialect) (fuel : Nat) :
    SettledAt α rest dialect fuel := by
  induction fuel with
  | zero =>
    refine ⟨fun more s => ?_, fun more s => ?_, fun more s => ?_⟩
    · exact .malformed
    · exact .malformed
    · exact .malformed
  | succ fuel ih =>
    refine ⟨fun more s => ?_, fun more s => ?_, fun more s => ?_⟩
    · rw [Nat.succ_add]
      exact ih.value_succ hr more s
    · rw [Nat.succ_add]
      exact ih.members_succ more s
    · rw [Nat.succ_add]
      exact ih.items_succ more s

/-- **A text with more behind it, apart from it, is read as before.** -/
theorem settled_read (hr : Apart rest) (dialect : Dialect) (s : List Char) :
    Settled rest (read (α := α) dialect s) (read dialect (s ++ rest)) := by
  have hfuel : 2 * (s ++ rest).length + 2 = 2 * s.length + 2 + 2 * rest.length := by
    rw [List.length_append]
    omega
  unfold read
  rw [hfuel]
  exact (settledAt hr dialect (2 * s.length + 2)).value (2 * rest.length) s

/-- What was read is read with more behind it, apart from it, and is left with that behind it. -/
theorem read_behind (hr : Apart rest) {s r : List Char} {v : Json α}
    (h : read dialect s = .ok (v, r)) : read dialect (s ++ rest) = .ok (v, r ++ rest) := by
  have hsettled := settled_read (α := α) hr dialect s
  rw [h] at hsettled
  obtain ⟨_, _, hx⟩ | ⟨_, hx, -⟩ | ⟨_, _, hx, hy⟩ := hsettled.cases
  · cases hx
  · cases hx
  · cases hx
    exact hy

end Values

end Json
end SceneScript
