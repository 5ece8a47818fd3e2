import SceneScript.Proofs.Script.Parameters
import SceneScript.Script.Line

/-!
# Flags in a text

A flag is found in a text by what stands around it, a blank before it and a blank, a terminator or
nothing behind it. So it is found in the pieces of a text, wherever the text is cut at a place that
no flag reaches across: before a blank (`containsFlag_append`), or behind a character that is
neither a blank nor in a flag (`flagless_append_cons`).

**Taking the flags out leaves none** (`flagless_dropFlags`). Where one was taken out stands what may
stand behind a flag, and no flag goes on with that.

A line is a head and tokens with marks. **The flag is switched as a token exactly if it stands
nowhere else in the line** (`switchedText_marked_iff`): otherwise something of the head or of
another token is taken out with it, which the lengths of the two lines show.
-/

set_option autoImplicit false

namespace SceneScript
namespace Line

open Parameters (marked marked_concat)
open Text (mark)

/-- No flag stands in the text. -/
def Flagless (s : List Char) : Prop := containsFlag s = false

instance (s : List Char) : Decidable (Flagless s) := inferInstanceAs (Decidable (_ = false))

theorem containsFlag_cons (c : Char) (s : List Char) :
    containsFlag (c :: s) = (startsFlag c s || containsFlag s) := rfl

theorem flagless_nil : Flagless [] := rfl

theorem flagless_cons (c : Char) (s : List Char) :
    Flagless (c :: s) ↔ startsFlag c s = false ∧ Flagless s := by
  unfold Flagless
  rw [containsFlag_cons, Bool.or_eq_false_iff]

/-! ## Where a flag can start -/

/-- A text that goes on with a character that is not in a word starts with the word, if it does,
    before that. -/
theorem prefix_append_iff {w a b : List Char} (hb : ∀ d, b.head? = some d → d ∉ w) :
    w <+: a ++ b ↔ w <+: a := by
  refine ⟨fun h => ?_, fun h => h.trans (List.prefix_append a b)⟩
  rcases List.prefix_or_prefix_of_prefix h (List.prefix_append a b) with h1 | ⟨u, rfl⟩
  · exact h1
  · cases u with
    | nil => rw [List.append_nil]
    | cons c u =>
      obtain ⟨r, rfl⟩ := (List.prefix_append_right_inj a).mp h
      exact absurd (List.mem_append_right a List.mem_cons_self) (hb c rfl)

/-- **Of what follows a piece of text, it only counts for a flag whether one may end there**, if it
    does not go on with a character of a flag. -/
theorem startsFlag_append {b b' : List Char} (hb : ∀ d, b.head? = some d → d ∉ flag)
    (hb' : ∀ d, b'.head? = some d → d ∉ flag) (h : endsFlag b = endsFlag b') (c : Char)
    (a : List Char) : startsFlag c (a ++ b) = startsFlag c (a ++ b') := by
  have hp : flag.isPrefixOf (a ++ b) = flag.isPrefixOf (a ++ b') := by
    rw [Bool.eq_iff_iff, List.isPrefixOf_iff_prefix, List.isPrefixOf_iff_prefix,
      prefix_append_iff hb, prefix_append_iff hb']
  unfold startsFlag
  rw [hp]
  by_cases hflag : flag <+: a
  · obtain ⟨r, rfl⟩ := hflag
    have hends : endsFlag (r ++ b) = endsFlag (r ++ b') := by
      cases r with
      | nil => exact h
      | cons d r => rfl
    rw [List.append_assoc, List.append_assoc, List.drop_left, List.drop_left, hends]
  · have hno : flag.isPrefixOf (a ++ b') = false := by
      rw [← Bool.not_eq_true, List.isPrefixOf_iff_prefix, prefix_append_iff hb']
      exact hflag
    rw [hno, Bool.and_false, Bool.false_and, Bool.false_and]

/-- No flag ends before one of its own characters. -/
theorem endsFlag_cons_of_mem_flag {d : Char} (h : d ∈ flag) (s : List Char) :
    endsFlag (d :: s) = false := by
  have hall : ∀ e ∈ flag, (!(Text.isBlank e || e == terminator)) = true :=
    List.all_eq_true.mp (by decide)
  exact (Bool.not_eq_true' _).mp (hall d h)

theorem isBlank_of_mem_flag {d : Char} (h : d ∈ flag) : Text.isBlank d = false :=
  (Bool.or_eq_false_iff.mp (endsFlag_cons_of_mem_flag h [])).1

theorem head_notMem_flag {b : List Char} (h : endsFlag b = true) :
    ∀ d, b.head? = some d → d ∉ flag := by
  intro d hd hm
  obtain ⟨r, rfl⟩ := List.head?_eq_some_iff.mp hd
  rw [endsFlag_cons_of_mem_flag hm] at h
  cases h

theorem startsFlag_iff (c : Char) (s : List Char) :
    startsFlag c s = true ↔
      Text.isBlank c = true ∧ ∃ b, s = flag ++ b ∧ endsFlag b = true := by
  unfold startsFlag
  rw [Bool.and_eq_true, Bool.and_eq_true, List.isPrefixOf_iff_prefix, and_assoc]
  refine and_congr_right fun _ => ⟨?_, ?_⟩
  · rintro ⟨⟨b, rfl⟩, hb⟩
    rw [List.drop_left] at hb
    exact ⟨b, rfl, hb⟩
  · rintro ⟨b, rfl, hb⟩
    rw [List.drop_left]
    exact ⟨List.prefix_append flag b, hb⟩

/-- A flag starts at a blank. -/
theorem startsFlag_of_not_blank {c : Char} (hc : Text.isBlank c = false) (s : List Char) :
    startsFlag c s = false := by
  unfold startsFlag
  rw [hc, Bool.false_and, Bool.false_and]

/-- What a flag may end before is, for a flag, as good as the end. -/
theorem startsFlag_append_of_endsFlag {b : List Char} (h : endsFlag b = true) (c : Char)
    (a : List Char) : startsFlag c (a ++ b) = startsFlag c a := by
  have hends : endsFlag b = endsFlag [] := h
  rw [startsFlag_append (head_notMem_flag h) (head_notMem_flag rfl) hends, List.append_nil]

/-! ## Flags in the pieces of a text -/

/-- **A text is searched for flags in two pieces**, if the second one starts where a flag may
    end. -/
theorem containsFlag_append {b : List Char} (h : endsFlag b = true) (a : List Char) :
    containsFlag (a ++ b) = (containsFlag a || containsFlag b) := by
  induction a with
  | nil => rfl
  | cons c a ih =>
    rw [List.cons_append, containsFlag_cons, containsFlag_cons, startsFlag_append_of_endsFlag h,
      ih, Bool.or_assoc]

theorem flagless_append {b : List Char} (h : endsFlag b = true) (a : List Char) :
    Flagless (a ++ b) ↔ Flagless a ∧ Flagless b := by
  unfold Flagless
  rw [containsFlag_append h, Bool.or_eq_false_iff]

/-- **No flag reaches across a character that is neither a blank nor in a flag.** -/
theorem flagless_append_cons {c : Char} (hc : Text.isBlank c = false) (hf : c ∉ flag)
    (a b : List Char) : Flagless (a ++ c :: b) ↔ Flagless (a ++ [c]) ∧ Flagless b := by
  have hstart := startsFlag_of_not_blank hc
  have hhead : ∀ s d, (c :: s).head? = some d → d ∉ flag := fun s d hd => Option.some.inj hd ▸ hf
  induction a with
  | nil => simp [flagless_cons, hstart, flagless_nil]
  | cons d a ih =>
    have hd : startsFlag d (a ++ c :: b) = startsFlag d (a ++ [c]) :=
      startsFlag_append (hhead b) (hhead []) rfl d a
    rw [List.cons_append, List.cons_append, flagless_cons, flagless_cons, hd, and_assoc]
    exact and_congr_right fun _ => ih

/-- No flag starts in a text without blanks. -/
theorem flagless_append_of_no_blank {a : List Char} (ha : ∀ c ∈ a, Text.isBlank c = false)
    (b : List Char) : Flagless (a ++ b) ↔ Flagless b := by
  induction a with
  | nil => exact Iff.rfl
  | cons c a ih =>
    obtain ⟨hc, ha⟩ := List.forall_mem_cons.mp ha
    rw [List.cons_append, flagless_cons, and_iff_right (startsFlag_of_not_blank hc _), ih ha]

theorem flagless_of_no_blank {a : List Char} (ha : ∀ c ∈ a, Text.isBlank c = false) :
    Flagless a := by
  have h := (flagless_append_of_no_blank ha []).mpr flagless_nil
  rwa [List.append_nil] at h

theorem flagless_cons_of_not_blank {c : Char} (hc : Text.isBlank c = false) (s : List Char) :
    Flagless (c :: s) ↔ Flagless s :=
  flagless_append_of_no_blank (List.forall_mem_singleton.mpr hc) s

/-! ### Blanks -/

theorem endsFlag_of_isBlankText {s : List Char} (h : Text.isBlankText s = true) :
    endsFlag s = true := by
  cases s with
  | nil => rfl
  | cons c s =>
    have hc : Text.isBlank c = true := List.all_eq_true.mp h c List.mem_cons_self
    rw [endsFlag, hc, Bool.true_or]

theorem flagless_of_isBlankText {s : List Char} (h : Text.isBlankText s = true) : Flagless s := by
  induction s with
  | nil => exact flagless_nil
  | cons c s ih =>
    have hblank := List.all_eq_true.mp h
    refine (flagless_cons c s).mpr ⟨Bool.eq_false_iff.mpr fun hs => ?_, ih ?_⟩
    · obtain ⟨-, b, rfl, -⟩ := (startsFlag_iff c s).mp hs
      exact absurd (hblank '-' (by simp [flag])) (by decide)
    · exact List.all_eq_true.mpr fun d hd => hblank d (List.mem_cons_of_mem c hd)

/-- **Trimming the end hides no flag and makes none.** -/
theorem containsFlag_trimEnd (s : List Char) : containsFlag (Text.trimEnd s) = containsFlag s := by
  obtain ⟨blanks, hb, hs⟩ := Text.exists_trimEnd_append s
  have hnone : containsFlag blanks = false := flagless_of_isBlankText hb
  rw [← congrArg containsFlag hs, containsFlag_append (endsFlag_of_isBlankText hb), hnone,
    Bool.or_false]

/-! ## Taking flags out -/

theorem dropFlags_zero_cons (c : Char) (s : List Char) :
    dropFlags 0 (c :: s) =
      if startsFlag c s then dropFlags flag.length s else c :: dropFlags 0 s :=
  if_neg (Nat.lt_irrefl 0)

theorem dropFlags_succ_cons (k : Nat) (c : Char) (s : List Char) :
    dropFlags (k + 1) (c :: s) = dropFlags k s :=
  if_pos (Nat.succ_pos k)

theorem dropFlags_of_flagless {s : List Char} (h : Flagless s) : dropFlags 0 s = s := by
  induction s with
  | nil => rfl
  | cons c s ih =>
    obtain ⟨hc, hs⟩ := (flagless_cons c s).mp h
    rw [dropFlags_zero_cons, hc, if_neg Bool.false_ne_true, ih hs]

theorem length_dropFlags_le (k : Nat) (s : List Char) : (dropFlags k s).length ≤ s.length := by
  induction s generalizing k with
  | nil => exact Nat.le_refl 0
  | cons c s ih =>
    cases k with
    | zero =>
      rw [dropFlags_zero_cons]
      split
      · exact (ih _).trans (Nat.le_succ _)
      · exact Nat.succ_le_succ (ih 0)
    | succ k =>
      rw [dropFlags_succ_cons]
      exact (ih k).trans (Nat.le_succ _)

/-- **A text loses something exactly if a flag stands in it.** -/
theorem length_dropFlags_eq_iff (s : List Char) :
    (dropFlags 0 s).length = s.length ↔ Flagless s := by
  refine ⟨fun h => ?_, fun h => by rw [dropFlags_of_flagless h]⟩
  induction s with
  | nil => exact flagless_nil
  | cons c s ih =>
    rw [dropFlags_zero_cons] at h
    split at h
    · have hle := length_dropFlags_le flag.length s
      rw [h, List.length_cons] at hle
      omega
    · next hc =>
      rw [List.length_cons, List.length_cons] at h
      exact (flagless_cons c s).mpr ⟨Bool.eq_false_of_not_eq_true hc, ih (by omega)⟩

theorem dropFlags_append_of_le {b : List Char} (h : endsFlag b = true) {a : List Char} {k : Nat}
    (hk : k ≤ a.length) : dropFlags k (a ++ b) = dropFlags k a ++ dropFlags 0 b := by
  induction a generalizing k with
  | nil =>
    obtain rfl : k = 0 := Nat.le_zero.mp hk
    rfl
  | cons c a ih =>
    cases k with
    | zero =>
      rw [List.cons_append, dropFlags_zero_cons, dropFlags_zero_cons,
        startsFlag_append_of_endsFlag h]
      split
      · next hs =>
        -- the flag that starts here is a part of the first piece
        obtain ⟨-, r, rfl, -⟩ := (startsFlag_iff c a).mp hs
        exact ih (List.prefix_append flag r).length_le
      · rw [ih (Nat.zero_le _), List.cons_append]
    | succ k =>
      rw [List.cons_append, dropFlags_succ_cons, dropFlags_succ_cons]
      exact ih (Nat.le_of_succ_le_succ hk)

/-- **Flags are taken out of the pieces of a text.** -/
theorem dropFlags_append {b : List Char} (h : endsFlag b = true) (a : List Char) :
    dropFlags 0 (a ++ b) = dropFlags 0 a ++ dropFlags 0 b :=
  dropFlags_append_of_le h (Nat.zero_le _)

/-! ### What is left has no flag -/

theorem dropFlags_skip (w s : List Char) : dropFlags w.length (w ++ s) = dropFlags 0 s := by
  induction w with
  | nil => rfl
  | cons c w ih =>
    rw [List.cons_append, List.length_cons, dropFlags_succ_cons, ih]

/-- A flag may end before what is left if it may before the text: where a flag was taken out, one
    may end before what stood behind it. -/
theorem endsFlag_dropFlags (s : List Char) : endsFlag (dropFlags 0 s) = endsFlag s := by
  induction hn : s.length using Nat.strongRecOn generalizing s with
  | ind n ih =>
    cases s with
    | nil => rfl
    | cons c s =>
      rw [dropFlags_zero_cons]
      split
      · next hs =>
        obtain ⟨hc, b, rfl, hb⟩ := (startsFlag_iff c s).mp hs
        have hshort : b.length < n := by
          rw [← hn, List.length_cons, List.length_append]
          omega
        rw [dropFlags_skip, ih b.length hshort b rfl, hb, endsFlag, hc, Bool.true_or]
      · rfl

/-- A piece of a flag at the start of what is left stood at the start of the text. -/
theorem prefix_of_prefix_dropFlags {w s : List Char} (hw : w ⊆ flag)
    (h : w <+: dropFlags 0 s) : w <+: s := by
  induction w generalizing s with
  | nil => exact List.nil_prefix
  | cons d w ih =>
    obtain ⟨hd, hw⟩ := List.cons_subset.mp hw
    cases s with
    | nil => exact h
    | cons c s =>
      have hends := endsFlag_dropFlags (c :: s)
      rw [dropFlags_zero_cons] at h hends
      split at h
      · next hs =>
        -- what is left starts where a flag may end, and so with no character of a flag
        obtain ⟨hc, -⟩ := (startsFlag_iff c s).mp hs
        rw [if_pos hs, endsFlag, hc, Bool.true_or] at hends
        obtain ⟨r, hr⟩ := h
        exact absurd hd (head_notMem_flag hends d (by rw [← hr]; rfl))
      · obtain ⟨rfl, hp⟩ := List.cons_prefix_cons.mp h
        exact List.cons_prefix_cons.mpr ⟨rfl, ih hw hp⟩

/-- A text without blanks is passed over. -/
theorem dropFlags_append_of_no_blank {a : List Char} (ha : ∀ c ∈ a, Text.isBlank c = false)
    (b : List Char) : dropFlags 0 (a ++ b) = a ++ dropFlags 0 b := by
  induction a with
  | nil => rfl
  | cons c a ih =>
    obtain ⟨hc, ha⟩ := List.forall_mem_cons.mp ha
    rw [List.cons_append, dropFlags_zero_cons, startsFlag_of_not_blank hc,
      if_neg Bool.false_ne_true, ih ha, List.cons_append]

/-- **A flag starts at a character as it did before flags were taken out behind it.** -/
theorem startsFlag_dropFlags (c : Char) (s : List Char) :
    startsFlag c (dropFlags 0 s) = startsFlag c s := by
  have hvisible : ∀ d ∈ flag, Text.isBlank d = false := fun d hd => isBlank_of_mem_flag hd
  rw [Bool.eq_iff_iff, startsFlag_iff, startsFlag_iff]
  refine and_congr_right fun _ => ⟨?_, ?_⟩
  · rintro ⟨b, hb, hends⟩
    obtain ⟨r, rfl⟩ := prefix_of_prefix_dropFlags (List.Subset.refl flag) ⟨b, hb.symm⟩
    rw [dropFlags_append_of_no_blank hvisible] at hb
    rw [← (List.append_cancel_left hb : dropFlags 0 r = b), endsFlag_dropFlags] at hends
    exact ⟨r, rfl, hends⟩
  · rintro ⟨b, rfl, hends⟩
    exact ⟨dropFlags 0 b, dropFlags_append_of_no_blank hvisible b,
      (endsFlag_dropFlags b).trans hends⟩

/-- **What is left when the flags are taken out has no flag**: none comes together across a cut. -/
theorem flagless_dropFlags (k : Nat) (s : List Char) : Flagless (dropFlags k s) := by
  induction s generalizing k with
  | nil => exact flagless_nil
  | cons c s ih =>
    cases k with
    | zero =>
      rw [dropFlags_zero_cons]
      split
      · exact ih _
      · next hc =>
        refine (flagless_cons c _).mpr ⟨?_, ih 0⟩
        rw [startsFlag_dropFlags]
        exact Bool.eq_false_of_not_eq_true hc
    | succ k =>
      rw [dropFlags_succ_cons]
      exact ih k

/-! ## Lines of tokens -/

/-- The flag as a token. -/
def flagToken : List Char := ['n', 'e', 'x', 't']

/-- No flag stands in the token with its mark, unless the token is the flag. -/
def Alone (token : List Char) : Prop := token = flagToken ∨ Flagless (mark ++ token)

instance (token : List Char) : Decidable (Alone token) := inferInstanceAs (Decidable (_ ∨ _))

theorem endsFlag_marked (tokens : List (List Char)) : endsFlag (marked tokens) = true := by
  cases tokens with
  | nil => rfl
  | cons token tokens => rfl

theorem flagless_marked (tokens : List (List Char)) :
    Flagless (marked tokens) ↔ ∀ token ∈ tokens, Flagless (mark ++ token) := by
  induction tokens with
  | nil => exact iff_of_true flagless_nil (List.forall_mem_nil _)
  | cons token tokens ih =>
    show Flagless ((mark ++ token) ++ marked tokens) ↔ _
    rw [flagless_append (endsFlag_marked tokens), ih, List.forall_mem_cons]

/-- **A line of tokens holds a flag exactly if it is one of them.** -/
theorem containsFlag_marked {head : List Char} (hh : Flagless head) {tokens : List (List Char)}
    (ht : ∀ token ∈ tokens, Alone token) :
    containsFlag (head ++ marked tokens) = decide (flagToken ∈ tokens) := by
  have hmarked : containsFlag (marked tokens) = decide (flagToken ∈ tokens) := by
    induction tokens with
    | nil => rfl
    | cons token tokens ih =>
      obtain ⟨htoken, htokens⟩ := List.forall_mem_cons.mp ht
      show containsFlag ((mark ++ token) ++ marked tokens) = _
      rw [containsFlag_append (endsFlag_marked tokens), ih htokens]
      rcases htoken with rfl | htoken
      · have hflag : containsFlag (mark ++ flagToken) = true := by decide
        rw [hflag, Bool.true_or, decide_eq_true List.mem_cons_self]
      · have hne : flagToken ≠ token := by
          rintro rfl
          exact absurd htoken (by decide)
        have htoken' : containsFlag (mark ++ token) = false := htoken
        rw [htoken', Bool.false_or]
        simp [hne]
  have hh' : containsFlag head = false := hh
  rw [containsFlag_append (endsFlag_marked tokens), hh', Bool.false_or, hmarked]

/-- **Taking the flags out of a line of tokens takes out the tokens that are flags.** -/
theorem dropFlags_marked {head : List Char} (hh : Flagless head) {tokens : List (List Char)}
    (ht : ∀ token ∈ tokens, Alone token) :
    dropFlags 0 (head ++ marked tokens) =
      head ++ marked (tokens.filter fun token => token ≠ flagToken) := by
  have hmarked : dropFlags 0 (marked tokens) =
      marked (tokens.filter fun token => token ≠ flagToken) := by
    induction tokens with
    | nil => rfl
    | cons token tokens ih =>
      obtain ⟨htoken, htokens⟩ := List.forall_mem_cons.mp ht
      show dropFlags 0 ((mark ++ token) ++ marked tokens) = _
      rw [dropFlags_append (endsFlag_marked tokens), ih htokens]
      by_cases hf : token = flagToken
      · subst hf
        rw [List.filter_cons_of_neg (by simp)]
        rfl
      · rw [dropFlags_of_flagless (htoken.resolve_left hf),
          List.filter_cons_of_pos (by simpa using hf)]
        rfl
  rw [dropFlags_append (endsFlag_marked tokens), dropFlags_of_flagless hh, hmarked]

/-- What is left of tokens is no longer than the tokens that are no flags, and as long only if none
    of them loses a flag. -/
theorem length_dropFlags_tokens (tokens : List (List Char)) :
    (dropFlags 0 (marked tokens)).length ≤
        (marked (tokens.filter fun token => token ≠ flagToken)).length ∧
      ((dropFlags 0 (marked tokens)).length =
          (marked (tokens.filter fun token => token ≠ flagToken)).length →
        ∀ token ∈ tokens, Alone token) := by
  induction tokens with
  | nil => exact ⟨Nat.le_refl 0, fun _ _ h => nomatch h⟩
  | cons token tokens ih =>
    have hsplit : dropFlags 0 (marked (token :: tokens)) =
        dropFlags 0 (mark ++ token) ++ dropFlags 0 (marked tokens) :=
      dropFlags_append (endsFlag_marked tokens) (mark ++ token)
    obtain ⟨hle, halone⟩ := ih
    rw [hsplit, List.length_append, List.forall_mem_cons]
    by_cases hf : token = flagToken
    · subst hf
      have hnone : (dropFlags 0 (mark ++ flagToken)).length = 0 := by decide
      rw [List.filter_cons_of_neg (by simp), hnone, Nat.zero_add]
      exact ⟨hle, fun h => ⟨.inl rfl, halone h⟩⟩
    · have hlength : (marked (token :: tokens.filter fun t => t ≠ flagToken)).length =
          (mark ++ token).length + (marked (tokens.filter fun t => t ≠ flagToken)).length :=
        List.length_append
      have hpiece := length_dropFlags_le 0 (mark ++ token)
      rw [List.filter_cons_of_pos (by simpa using hf), hlength]
      refine ⟨Nat.add_le_add hpiece hle, fun h => ⟨.inr ?_, halone (by omega)⟩⟩
      exact (length_dropFlags_eq_iff _).mp (by omega)

/-- **Taking the flags out of a line leaves everything but the tokens that are flags exactly if no
    other flag stands in it.** -/
theorem length_le_dropFlags_marked_iff {head : List Char} {tokens : List (List Char)} :
    (head ++ marked (tokens.filter fun token => token ≠ flagToken)).length ≤
        (dropFlags 0 (head ++ marked tokens)).length ↔
      Flagless head ∧ ∀ token ∈ tokens, Alone token := by
  refine ⟨fun h => ?_, fun ⟨hh, ht⟩ => (congrArg List.length (dropFlags_marked hh ht)).ge⟩
  obtain ⟨hle, halone⟩ := length_dropFlags_tokens tokens
  have hhead := length_dropFlags_le 0 head
  rw [dropFlags_append (endsFlag_marked tokens), List.length_append, List.length_append] at h
  exact ⟨(length_dropFlags_eq_iff head).mp (by omega), halone (by omega)⟩

/-- A text with the flag switched: every flag taken out if there is one, one put at the end if
    not. -/
def switchedText (s : List Char) : List Char :=
  if containsFlag s then Text.trimEnd (dropFlags 0 s) else s ++ ' ' :: flag

/-- The tokens with the flag switched: taken out if it is one of them, put at the end if not. -/
def switchedTokens (tokens : List (List Char)) : List (List Char) :=
  if flagToken ∈ tokens then tokens.filter fun token => token ≠ flagToken
  else tokens ++ [flagToken]

/-- **Switching the flag in a line switches the token exactly if no other flag stands in the
    line.** -/
theorem switchedText_marked_iff {head : List Char} {tokens : List (List Char)}
    (hend : ∀ c, (head ++ marked (tokens.filter fun token => token ≠ flagToken)).getLast? = some c →
      Text.isBlank c = false) :
    switchedText (head ++ marked tokens) = head ++ marked (switchedTokens tokens) ↔
      Flagless head ∧ ∀ token ∈ tokens, Alone token := by
  unfold switchedText switchedTokens
  constructor
  · intro h
    by_cases hflag : containsFlag (head ++ marked tokens) = true
    · rw [if_pos hflag] at h
      have hle := (Text.trimEnd_isPrefix (dropFlags 0 (head ++ marked tokens))).length_le
      rw [h] at hle
      by_cases hmem : flagToken ∈ tokens
      · rw [if_pos hmem] at hle
        exact length_le_dropFlags_marked_iff.mp hle
      · -- taking flags out of a text does not make it longer
        have hdrop := length_dropFlags_le 0 (head ++ marked tokens)
        have hlonger : 0 < (mark ++ flagToken).length := by decide
        rw [if_neg hmem, marked_concat, ← List.append_assoc, List.length_append] at hle
        omega
    · have hnone : Flagless (head ++ marked tokens) := Bool.eq_false_of_not_eq_true hflag
      obtain ⟨hhead, hmarked⟩ := (flagless_append (endsFlag_marked tokens) head).mp hnone
      exact ⟨hhead, fun token ht => .inr ((flagless_marked tokens).mp hmarked token ht)⟩
  · rintro ⟨hhead, halone⟩
    rw [containsFlag_marked hhead halone]
    by_cases hmem : flagToken ∈ tokens
    · rw [if_pos (decide_eq_true hmem), if_pos hmem, dropFlags_marked hhead halone]
      exact Text.trimEnd_of_getLast hend
    · rw [if_neg (by simpa using hmem), if_neg hmem, marked_concat, ← List.append_assoc]
      rfl

end Line
end SceneScript
