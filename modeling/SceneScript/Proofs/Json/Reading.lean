import SceneScript.Proofs.Json.Grammar

/-!
# Every text of a value is read

**The reader reads every text that spells a value, as that value**, of repeated names the last, with
what stands behind it left over (`yields_bare`), in both dialects. It can only refuse a number that
the value has, and does so exactly if the dialect accepts some number of the value not
(`Yields`): the first such number is where it stops.

The induction is on the spelling. The rest of the text matters behind numbers alone, which is why it
must not go on like one; a space never does. The fuel is counted by the length of the text: each
step down and each step to the right takes a character.
-/

set_option autoImplicit false

namespace SceneScript
namespace Json

/-! ## Space -/

theorem skipSpace_cons {c : Char} (h : isSpace c = false) (s : List Char) :
    skipSpace (c :: s) = c :: s := by
  unfold skipSpace
  rw [List.dropWhile_cons_of_neg (by simp [h])]

theorem skipSpace_append {space : List Char} (h : AllSpace space) (s : List Char) :
    skipSpace (space ++ s) = skipSpace s := by
  unfold skipSpace
  rw [List.dropWhile_append_of_pos h]

/-- The space before a character is skipped. -/
theorem skipSpace_append_cons {space : List Char} (h : AllSpace space) {c : Char}
    (hc : isSpace c = false) (s : List Char) : skipSpace (space ++ c :: s) = c :: s := by
  rw [skipSpace_append h, skipSpace_cons hc]

theorem isSpace_of_visible {c : Char} (h : Text.Visible c) : isSpace c = false := by
  have hne : ∀ d : Char, d.toNat ≤ 0x20 → (c == d) = false := by
    intro d hd
    rw [beq_eq_false_iff_ne]
    rintro rfl
    exact absurd h.1 (by omega)
  unfold isSpace
  rw [hne ' ' (by decide), hne '\t' (by decide), hne '\n' (by decide), hne '\r' (by decide)]
  rfl

theorem endsNumber_space {space rest : List Char} (hs : AllSpace space) (hr : EndsNumber rest) :
    EndsNumber (space ++ rest) := by
  cases space with
  | nil => exact hr
  | cons c space =>
    refine endsNumber_cons ?_
    have hc : isSpace c = true := hs c List.mem_cons_self
    simp only [isSpace, Bool.or_eq_true, beq_iff_eq] at hc
    obtain ((rfl | rfl) | rfl) | rfl := hc
    · decide
    · decide
    · decide
    · decide

/-! ## Strings -/

section Strings

variable {start : Nat}

theorem readString_quote (start : Nat) (s : List Char) :
    readString start none ('"' :: s) = .ok ([], s) := by
  rw [readString.eq_def]
  rfl

theorem readString_plain {c : Char} (hq : c ≠ '"') (hb : c ≠ '\\') (hc : ¬ c.toNat < 0x20)
    (s : List Char) :
    readString start none (c :: s) =
      (readString start none s).map fun (t, r) => (c :: t, r) := by
  rw [readString.eq_def]
  dsimp only
  rw [if_neg hq, if_neg hb, if_neg hc]
  rfl

theorem readString_letter {e d : Char} (hd : unescape? e = some d) (s : List Char) :
    readString start none ('\\' :: e :: s) =
      (readString start none s).map fun (t, r) => (d :: t, r) := by
  have hu : unescape? 'u' = none := by decide
  have he : e ≠ 'u' := by
    rintro rfl
    rw [hu] at hd
    cases hd
  rw [readString.eq_def]
  dsimp only
  rw [if_neg (by decide), if_pos rfl, if_neg he, hd]
  rfl

/-- The unit of four digits is joined to the half of a pair that may be pending. -/
theorem readString_digits (pending : Option Nat) {a b c d : Char} {n : Nat}
    (hn : hexValues? a b c d = some n) {s : List Char} (hs : s ≠ []) :
    readString start pending ('\\' :: 'u' :: a :: b :: c :: d :: s) =
      (readString start (joinUnit pending n).2 s).map fun (t, r) =>
        ((joinUnit pending n).1 ++ t, r) := by
  rw [readString.eq_def]
  dsimp only
  rw [if_neg (by decide), if_pos rfl, if_pos rfl, hn]
  simp [List.isEmpty_iff, hs]

theorem readString_unit {a b c d : Char} {n : Nat} (hn : hexValues? a b c d = some n)
    (hh : isHighUnit n = false) (hl : isLowUnit n = false) {s : List Char} (hs : s ≠ []) :
    readString start none ('\\' :: 'u' :: a :: b :: c :: d :: s) =
      (readString start none s).map fun (t, r) => (Char.ofNat n :: t, r) := by
  have hj : joinUnit none n = ([Char.ofNat n], none) := by
    unfold joinUnit
    rw [hh, hl]
    rfl
  rw [readString_digits none hn hs, hj]
  rfl

theorem readString_pair {a b c d a' b' c' d' : Char} {high low : Nat}
    (hh : hexValues? a b c d = some high) (hhigh : isHighUnit high = true)
    (hl : hexValues? a' b' c' d' = some low) (hlow : isLowUnit low = true) {s : List Char}
    (hs : s ≠ []) :
    readString start none
        ('\\' :: 'u' :: a :: b :: c :: d :: '\\' :: 'u' :: a' :: b' :: c' :: d' :: s) =
      (readString start none s).map fun (t, r) =>
        (Char.ofNat (0x10000 + (high - 0xD800) * 0x400 + (low - 0xDC00)) :: t, r) := by
  have hfirst : joinUnit none high = ([], some high) := by
    unfold joinUnit
    rw [hhigh]
    rfl
  have hlow' : isHighUnit low = false := by
    unfold isLowUnit at hlow
    unfold isHighUnit
    simp only [Bool.and_eq_true, decide_eq_true_eq] at hlow
    simp only [Bool.and_eq_false_iff, decide_eq_false_iff_not]
    omega
  have hsecond : joinUnit (some high) low =
      ([Char.ofNat (0x10000 + (high - 0xD800) * 0x400 + (low - 0xDC00))], none) := by
    unfold joinUnit
    rw [hlow', hlow]
    rfl
  rw [readString_digits none hh (List.cons_ne_nil _ _), hfirst, readString_digits _ hl hs, hsecond]
  cases readString start none s with
  | error e => rfl
  | ok p => rfl

/-- **A string is read from each of its texts.** -/
theorem readString_spelled (start : Nat) {t s : List Char} (h : SpellsString t s)
    (rest : List Char) : readString start none (t ++ '"' :: rest) = .ok (s, rest) := by
  induction h with
  | nil => exact readString_quote start rest
  | plain hq hb hc _ ih =>
    rw [List.cons_append, readString_plain hq hb (not_lt.mpr hc), ih]
    rfl
  | letter hd _ ih =>
    rw [List.cons_append, List.cons_append, readString_letter hd, ih]
    rfl
  | unit hn hh hl _ ih =>
    simp only [List.cons_append]
    rw [readString_unit hn hh hl (by simp), ih]
    rfl
  | pair hh hhigh hl hlow _ ih =>
    simp only [List.cons_append]
    rw [readString_pair hh hhigh hl hlow (by simp), ih]
    rfl

end Strings

/-! ## How reading comes out -/

/-- A value is read with a rest left over if its numbers are accepted, and if they are not one of
    them is refused. -/
def Yields {β : Type} (accepted : Prop) (b : β) (rest : List Char)
    (x : Except ReadError (β × List Char)) : Prop :=
  (accepted ∧ x = .ok (b, rest)) ∨ (¬ accepted ∧ ∃ fault, x = .error (.number fault))

namespace Yields

variable {β : Type} {accepted : Prop} {b : β} {rest : List Char}

theorem read (h : accepted) : Yields accepted b rest (.ok (b, rest)) := .inl ⟨h, rfl⟩

theorem refused (h : ¬ accepted) (fault : NumberFault) :
    Yields accepted b rest (.error (.number fault)) := .inr ⟨h, fault, rfl⟩

theorem congr {accepted' : Prop} {x : Except ReadError (β × List Char)}
    (h : Yields accepted b rest x) (hi : accepted ↔ accepted') : Yields accepted' b rest x := by
  unfold Yields at h ⊢
  rwa [← hi]

variable {γ : Type} {c : γ} {rest' : List Char} {x : Except ReadError (β × List Char)}
  {y : Except ReadError (γ × List Char)}

/-- What is made of a value is read, or refused, as the value is. -/
theorem map (h : Yields accepted b rest x) (hread : x = .ok (b, rest) → y = .ok (c, rest'))
    (hrefused : ∀ e, x = .error e → y = .error e) : Yields accepted c rest' y := by
  obtain ⟨ha, hx⟩ | ⟨ha, fault, hx⟩ := h
  · exact .inl ⟨ha, hread hx⟩
  · exact .inr ⟨ha, fault, hrefused _ hx⟩

/-- Behind a value there is more to read: both have to be accepted. -/
theorem andThen {accepted' : Prop} (h : Yields accepted b rest x)
    (hread : x = .ok (b, rest) → Yields accepted' c rest' y)
    (hrefused : ∀ e, x = .error e → y = .error e) : Yields (accepted ∧ accepted') c rest' y := by
  obtain ⟨ha, hx⟩ | ⟨ha, fault, hx⟩ := h
  · exact (hread hx).congr (and_iff_right ha).symm
  · exact .inr ⟨fun h => ha h.1, fault, hrefused _ hx⟩

end Yields

section Values

variable {α : Type} [Scalar α] {dialect : Dialect} {fuel : Nat} {rest : List Char}

/-- The dialect accepts every number in the value. -/
def Accepted (dialect : Dialect) (v : Json α) : Prop :=
  v.Every (NumberAccepted dialect) fun _ => True

/-! ### Steps -/

theorem starts_spelled {p : NumberParts} (h : p.WellFormed) (power : List Char) :
    ∃ c r, p.spelled power = c :: r ∧ Text.Visible c ∧ c ≠ ']' ∧ c ≠ '"' ∧ c ≠ '\x7b' ∧
      c ≠ '[' := by
  obtain ⟨c, r, hs, hc⟩ := exists_spelled h power
  have hne : ∀ d : Char, d.isDigit = false → d ≠ '-' → c ≠ d := by
    rintro d hd hm rfl
    rcases hc with hc | hc
    · rw [hd] at hc
      cases hc
    · exact hm hc
  refine ⟨c, r, hs, ?_, hne _ rfl (by decide), hne _ rfl (by decide), hne _ rfl (by decide),
    hne _ rfl (by decide)⟩
  rcases hc with hc | rfl
  · exact Text.visible_of_isDigit hc
  · decide

/-- **A value starts with a character that is seen**, and no list begins with it as if it ended
    there. -/
theorem starts_bare {t : List Char} {v : Json α} (h : SpellsBare t v) :
    ∃ c r, t = c :: r ∧ Text.Visible c ∧ c ≠ ']' := by
  cases h with
  | null => exact ⟨'n', _, rfl, by decide, by decide⟩
  | yes => exact ⟨'t', _, rfl, by decide, by decide⟩
  | no => exact ⟨'f', _, rfl, by decide, by decide⟩
  | int _ =>
    obtain ⟨c, r, hs, hc, hne, -⟩ := starts_spelled (wellFormed_signedParts _ _) []
    exact ⟨c, r, hs, hc, hne⟩
  | real hp _ _ =>
    obtain ⟨c, r, hs, hc, hne, -⟩ := starts_spelled hp _
    exact ⟨c, r, hs, hc, hne⟩
  | str _ => exact ⟨'"', _, rfl, by decide, by decide⟩
  | noItems _ => exact ⟨'[', _, rfl, by decide, by decide⟩
  | arr _ => exact ⟨'[', _, rfl, by decide, by decide⟩
  | noMembers _ => exact ⟨'\x7b', _, rfl, by decide, by decide⟩
  | obj _ => exact ⟨'\x7b', _, rfl, by decide, by decide⟩

/-- A number is read as its value, or refused. -/
theorem yields_number {p : NumberParts} (h : p.WellFormed) {power : List Char}
    (ht : NumberParts.IsPowerText p.power power) (hr : EndsNumber rest) {accepted : Prop}
    {v : Json α}
    (hv : (accepted → numberValue dialect p (p.spelled power) = .ok v) ∧
      (¬ accepted → ∃ fault, numberValue (α := α) dialect p (p.spelled power) = .error fault)) :
    Yields accepted v rest (readValue dialect (fuel + 1) (p.spelled power ++ rest)) := by
  have hsimple : readValue (α := α) dialect (fuel + 1) (p.spelled power ++ rest) =
      readSimple dialect (p.spelled power ++ rest) := by
    obtain ⟨c, r, hs, -, -, hq, hb, ha⟩ := starts_spelled h power
    rw [hs, List.cons_append, readValue, if_neg hq, if_neg hb, if_neg ha]
  rw [hsimple, readSimple_spelled h ht hr]
  by_cases ha : accepted
  · rw [hv.1 ha]
    exact .read ha
  · obtain ⟨fault, hf⟩ := hv.2 ha
    rw [hf]
    exact .refused ha fault

theorem readValue_str {t s : List Char} (h : SpellsString t s) (rest : List Char) :
    readValue (α := α) dialect (fuel + 1) ('"' :: (t ++ '"' :: rest)) =
      .ok (.str (String.ofList s), rest) := by
  rw [readValue, if_pos rfl, readString_spelled _ h]

theorem readValue_noItems {space : List Char} (h : AllSpace space) (rest : List Char) :
    readValue (α := α) dialect (fuel + 1) ('[' :: (space ++ ']' :: rest)) = .ok (.arr [], rest) := by
  rw [readValue, if_neg (by decide), if_neg (by decide), if_pos rfl,
    skipSpace_append_cons h (by decide)]
  rfl

theorem readValue_noMembers {space : List Char} (h : AllSpace space) (rest : List Char) :
    readValue (α := α) dialect (fuel + 1) ('\x7b' :: (space ++ '\x7d' :: rest)) =
      .ok (.obj [], rest) := by
  rw [readValue, if_neg (by decide), if_pos rfl, skipSpace_append_cons h (by decide)]
  rfl

variable {accepted accepted' : Prop} {s : List Char}

theorem yields_arr {items : List (Json α)} {c : Char} {r : List Char}
    (hs : skipSpace s = c :: r) (hc : c ≠ ']')
    (h : Yields accepted items rest (readItems dialect fuel (skipSpace s))) :
    Yields accepted (.arr items) rest (readValue dialect (fuel + 1) ('[' :: s)) := by
  rw [readValue, if_neg (by decide), if_neg (by decide), if_pos rfl]
  rw [hs] at h ⊢
  dsimp only
  rw [if_neg hc]
  exact h.map (fun hx => by rw [hx]) fun e hx => by rw [hx]

theorem yields_obj {ms : List (String × Json α)} {r : List Char} (hs : skipSpace s = '"' :: r)
    (h : Yields accepted ms rest (readMembers dialect fuel (skipSpace s))) :
    Yields accepted (.obj (Fields.ofPairs ms)) rest
      (readValue dialect (fuel + 1) ('\x7b' :: s)) := by
  rw [readValue, if_neg (by decide), if_pos rfl]
  rw [hs] at h ⊢
  dsimp only
  rw [if_neg (by decide)]
  exact h.map (fun hx => by rw [hx]) fun e hx => by rw [hx]

theorem yields_items_last {v : Json α} {space : List Char} (hb : AllSpace space)
    (h : Yields accepted v (space ++ ']' :: rest) (readValue dialect fuel s)) :
    Yields accepted [v] rest (readItems dialect (fuel + 1) s) := by
  rw [readItems]
  refine h.map (fun hx => ?_) fun e hx => by rw [hx]
  rw [hx]
  dsimp only
  rw [skipSpace_append_cons hb (by decide)]
  rfl

theorem yields_items_more {v : Json α} {vs : List (Json α)} {space s' : List Char}
    (hb : AllSpace space)
    (h : Yields accepted v (space ++ ',' :: s') (readValue dialect fuel s))
    (h' : Yields accepted' vs rest (readItems dialect fuel (skipSpace s'))) :
    Yields (accepted ∧ accepted') (v :: vs) rest (readItems dialect (fuel + 1) s) := by
  rw [readItems]
  refine h.andThen (fun hx => ?_) fun e hx => by rw [hx]
  rw [hx]
  dsimp only
  rw [skipSpace_append_cons hb (by decide)]
  dsimp only
  rw [if_neg (by decide), if_pos rfl]
  exact h'.map (fun hx' => by rw [hx']) fun e hx' => by rw [hx']

/-- The member that a text begins with: a name, and a value behind the colon. -/
theorem readMembers_eq (dialect : Dialect) (fuel : Nat) {n : List Char} {name : String}
    (hn : SpellsName n name) (s : List Char) :
    readMembers (α := α) dialect (fuel + 1) (skipSpace (n ++ ':' :: s)) =
      match readValue dialect fuel (skipSpace s) with
      | .error e => .error e
      | .ok (v, r) =>
        match skipSpace r with
        | [] => .error (.malformed .comma 0)
        | d :: r =>
          if d = '\x7d' then .ok ([(name, v)], r)
          else if d = ',' then
            match readMembers dialect fuel (skipSpace r) with
            | .error e => .error e
            | .ok (members, rest) => .ok ((name, v) :: members, rest)
          else .error (.malformed .comma (d :: r).length) := by
  obtain ⟨hbefore, ht, hbehind⟩ := hn
  rename_i before t chars behind
  have happ : before ++ '"' :: (t ++ '"' :: behind) ++ ':' :: s =
      before ++ '"' :: (t ++ '"' :: (behind ++ ':' :: s)) := by simp
  rw [happ, skipSpace_append_cons hbefore (by decide), readMembers, if_neg (by decide),
    readString_spelled _ ht]
  dsimp only
  rw [skipSpace_append_cons hbehind (by decide)]
  exact if_neg (by decide)

theorem yields_members_last {n : List Char} {name : String} (hn : SpellsName n name) {v : Json α}
    {space : List Char} (hb : AllSpace space)
    (h : Yields accepted v (space ++ '\x7d' :: rest) (readValue dialect fuel (skipSpace s))) :
    Yields accepted [(name, v)] rest
      (readMembers dialect (fuel + 1) (skipSpace (n ++ ':' :: s))) := by
  rw [readMembers_eq dialect fuel hn]
  refine h.map (fun hx => ?_) fun e hx => by rw [hx]
  rw [hx]
  dsimp only
  rw [skipSpace_append_cons hb (by decide)]
  rfl

theorem yields_members_more {n : List Char} {name : String} (hn : SpellsName n name) {v : Json α}
    {ms : List (String × Json α)} {space s' : List Char} (hb : AllSpace space)
    (h : Yields accepted v (space ++ ',' :: s') (readValue dialect fuel (skipSpace s)))
    (h' : Yields accepted' ms rest (readMembers dialect fuel (skipSpace s'))) :
    Yields (accepted ∧ accepted') ((name, v) :: ms) rest
      (readMembers dialect (fuel + 1) (skipSpace (n ++ ':' :: s))) := by
  rw [readMembers_eq dialect fuel hn]
  refine h.andThen (fun hx => ?_) fun e hx => by rw [hx]
  rw [hx]
  dsimp only
  rw [skipSpace_append_cons hb (by decide)]
  dsimp only
  rw [if_neg (by decide), if_pos rfl]
  exact h'.map (fun hx' => by rw [hx']) fun e hx' => by rw [hx']

/-! ### Values, items and members -/

/-- How a text goes on behind the space that it starts with. -/
theorem skipSpace_items {t : List Char} {vs : List (Json α)} (h : SpellsItems t vs)
    (rest : List Char) : ∃ c r, skipSpace (t ++ rest) = c :: r ∧ c ≠ ']' := by
  have hspaced : ∀ {t : List Char} {v : Json α}, Spells t v → ∀ rest : List Char,
      ∃ c r, skipSpace (t ++ rest) = c :: r ∧ c ≠ ']' := by
    rintro _ _ ⟨hbefore, ht, -⟩ rest
    obtain ⟨c, r, rfl, hc, hne⟩ := starts_bare ht
    rw [List.append_assoc, List.append_assoc, List.cons_append,
      skipSpace_append_cons hbefore (isSpace_of_visible hc)]
    exact ⟨c, _, rfl, hne⟩
  cases h with
  | last hv => exact hspaced hv rest
  | more hv _ =>
    rw [List.append_assoc]
    exact hspaced hv _

theorem skipSpace_members {t : List Char} {ms : List (String × Json α)} (h : SpellsMembers t ms)
    (rest : List Char) : ∃ r, skipSpace (t ++ rest) = '"' :: r := by
  have hname : ∀ {n : List Char} {name : String}, SpellsName n name → ∀ rest : List Char,
      ∃ r, skipSpace (n ++ rest) = '"' :: r := by
    rintro _ _ ⟨hbefore, -, -⟩ rest
    rw [List.append_assoc, List.cons_append, skipSpace_append_cons hbefore (by decide)]
    exact ⟨_, rfl⟩
  cases h with
  | last hn _ =>
    rw [List.append_assoc]
    exact hname hn _
  | more hn _ _ =>
    rw [List.append_assoc]
    exact hname hn _

/-- A text with space around it is read without the space before it. -/
theorem skipSpace_bare {before t : List Char} {v : Json α} (hb : AllSpace before)
    (ht : SpellsBare t v) (rest : List Char) : skipSpace (before ++ (t ++ rest)) = t ++ rest := by
  obtain ⟨c, r, rfl, hc, -⟩ := starts_bare ht
  rw [List.cons_append, skipSpace_append_cons hb (isSpace_of_visible hc)]

mutual

/-- **A value is read from each of its texts.** -/
theorem yields_bare (dialect : Dialect) {t : List Char} {v : Json α} (h : SpellsBare t v)
    {rest : List Char} (hr : EndsNumber rest) {fuel : Nat} (hf : t.length < fuel) :
    Yields (v.Accepted dialect) v.distinct rest (readValue dialect fuel (t ++ rest)) := by
  obtain ⟨fuel, rfl⟩ := Nat.exists_eq_succ_of_ne_zero (Nat.ne_of_gt (Nat.zero_lt_of_lt hf))
  cases h with
  | null => exact .read trivial
  | yes => exact .read trivial
  | no => exact .read trivial
  | int hn =>
    exact yields_number (wellFormed_signedParts _ _) .none hr (numberValue_signedParts hn _ _)
  | real hp hreal ht => exact yields_number hp ht hr (numberValue_real hreal _ _)
  | @str t s ht =>
    have happ : '"' :: (t ++ ['"']) ++ rest = '"' :: (t ++ '"' :: rest) := by simp
    rw [happ, readValue_str ht]
    exact .read trivial
  | @noItems space hs =>
    have happ : '[' :: (space ++ [']']) ++ rest = '[' :: (space ++ ']' :: rest) := by simp
    rw [happ, readValue_noItems hs]
    exact .read trivial
  | @arr t vs ht =>
    have happ : '[' :: (t ++ [']']) ++ rest = '[' :: (t ++ ']' :: rest) := by simp
    rw [happ]
    simp only [List.length_cons, List.length_append, List.length_nil] at hf
    obtain ⟨c, r, hs, hc⟩ := skipSpace_items ht (']' :: rest)
    exact yields_arr hs hc (yields_items dialect ht rest (by omega))
  | @noMembers space hs =>
    have happ : '\x7b' :: (space ++ ['\x7d']) ++ rest = '\x7b' :: (space ++ '\x7d' :: rest) := by
      simp
    rw [happ, readValue_noMembers hs]
    exact .read ⟨trivial, trivial⟩
  | @obj t ms ht =>
    have happ : '\x7b' :: (t ++ ['\x7d']) ++ rest = '\x7b' :: (t ++ '\x7d' :: rest) := by simp
    rw [happ]
    simp only [List.length_cons, List.length_append, List.length_nil] at hf
    obtain ⟨r, hs⟩ := skipSpace_members ht ('\x7d' :: rest)
    have hms := yields_members dialect ht rest (show t.length < fuel by omega)
    exact (yields_obj hs hms).congr (and_iff_right trivial).symm
termination_by fuel

theorem yields_items (dialect : Dialect) {t : List Char} {vs : List (Json α)}
    (h : SpellsItems t vs) (rest : List Char) {fuel : Nat} (hf : t.length + 1 < fuel) :
    Yields (EveryItem (NumberAccepted dialect) (fun _ => True) vs) (distinctItems vs) rest
      (readItems dialect fuel (skipSpace (t ++ ']' :: rest))) := by
  obtain ⟨fuel, rfl⟩ := Nat.exists_eq_succ_of_ne_zero (Nat.ne_of_gt (Nat.zero_lt_of_lt hf))
  cases h with
  | last hv =>
    obtain ⟨hbefore, ht, hbehind⟩ := hv
    rename_i w before t behind
    simp only [List.length_append] at hf
    rw [List.append_assoc, List.append_assoc, skipSpace_bare hbefore ht]
    have hends : EndsNumber (behind ++ ']' :: rest) :=
      endsNumber_space hbehind (endsNumber_cons (by decide))
    have hvalue := yields_bare dialect ht hends (show t.length < fuel by omega)
    exact (yields_items_last hbehind hvalue).congr (and_iff_left trivial).symm
  | more hv hvs =>
    obtain ⟨hbefore, ht, hbehind⟩ := hv
    rename_i ts w vs before t behind
    simp only [List.length_append, List.length_cons] at hf
    have happ : before ++ (t ++ behind) ++ ',' :: ts ++ ']' :: rest =
        before ++ (t ++ (behind ++ ',' :: (ts ++ ']' :: rest))) := by simp
    rw [happ, skipSpace_bare hbefore ht]
    -- a comma ends a number just as the bracket does, so the first item is read alone
    have hends : EndsNumber (behind ++ ',' :: (ts ++ ']' :: rest)) :=
      endsNumber_space hbehind (endsNumber_cons (by decide))
    have hvalue := yields_bare dialect ht hends (show t.length < fuel by omega)
    exact yields_items_more hbehind hvalue (yields_items dialect hvs rest (by omega))
termination_by fuel

theorem yields_members (dialect : Dialect) {t : List Char} {ms : List (String × Json α)}
    (h : SpellsMembers t ms) (rest : List Char) {fuel : Nat} (hf : t.length < fuel) :
    Yields (EveryMember (NumberAccepted dialect) (fun _ => True) ms) (distinctMembers ms) rest
      (readMembers dialect fuel (skipSpace (t ++ '\x7d' :: rest))) := by
  obtain ⟨fuel, rfl⟩ := Nat.exists_eq_succ_of_ne_zero (Nat.ne_of_gt (Nat.zero_lt_of_lt hf))
  cases h with
  | last hn hv =>
    obtain ⟨hbefore, ht, hbehind⟩ := hv
    rename_i n name w before t behind
    simp only [List.length_append, List.length_cons] at hf
    have happ : n ++ ':' :: (before ++ (t ++ behind)) ++ '\x7d' :: rest =
        n ++ ':' :: (before ++ (t ++ (behind ++ '\x7d' :: rest))) := by simp
    rw [happ]
    have hends : EndsNumber (behind ++ '\x7d' :: rest) :=
      endsNumber_space hbehind (endsNumber_cons (by decide))
    have hvalue := yields_bare dialect ht hends (show t.length < fuel by omega)
    rw [← skipSpace_bare hbefore ht] at hvalue
    exact (yields_members_last hn hbehind hvalue).congr (and_iff_left trivial).symm
  | more hn hv hms =>
    obtain ⟨hbefore, ht, hbehind⟩ := hv
    rename_i n ts name w ms before t behind
    simp only [List.length_append, List.length_cons] at hf
    have happ : n ++ ':' :: (before ++ (t ++ behind) ++ ',' :: ts) ++ '\x7d' :: rest =
        n ++ ':' :: (before ++ (t ++ (behind ++ ',' :: (ts ++ '\x7d' :: rest)))) := by simp
    rw [happ]
    have hends : EndsNumber (behind ++ ',' :: (ts ++ '\x7d' :: rest)) :=
      endsNumber_space hbehind (endsNumber_cons (by decide))
    have hvalue := yields_bare dialect ht hends (show t.length < fuel by omega)
    rw [← skipSpace_bare hbefore ht] at hvalue
    exact yields_members_more hn hbehind hvalue (yields_members dialect hms rest (by omega))
termination_by fuel

end

/-! ### Whole texts -/

theorem yields_read (dialect : Dialect) {t : List Char} {v : Json α} (h : SpellsBare t v)
    {rest : List Char} (hr : EndsNumber rest) :
    Yields (v.Accepted dialect) v.distinct rest (read dialect (t ++ rest)) :=
  yields_bare dialect h hr (by rw [List.length_append]; omega)

/-- How a text that is a value is read, with space around it. -/
theorem readAll_cases (dialect : Dialect) {t : List Char} {v : Json α} (h : Spells t v) :
    (v.Accepted dialect ∧ readAll dialect t = .ok v.distinct) ∨
      (¬ v.Accepted dialect ∧ ∃ fault, readAll (α := α) dialect t = .error (.number fault)) := by
  obtain ⟨hbefore, ht, hbehind⟩ := h
  rename_i before t behind
  have hends : EndsNumber behind := by
    have := endsNumber_space hbehind endsNumber_nil
    rwa [List.append_nil] at this
  have hspace : skipSpace behind = [] := by
    have := skipSpace_append hbehind []
    rwa [List.append_nil] at this
  have hskip : skipSpace (before ++ (t ++ behind)) = t ++ behind := skipSpace_bare hbefore ht behind
  unfold readAll
  rw [hskip]
  obtain ⟨ha, hx⟩ | ⟨ha, fault, hx⟩ := yields_read dialect ht hends
  · rw [hx]
    dsimp only
    rw [hspace]
    exact .inl ⟨ha, rfl⟩
  · rw [hx]
    exact .inr ⟨ha, fault, rfl⟩

/-- **Every text that spells a value is a document of that value**, unless a number in it is
    refused. -/
theorem readDocument_cases {t : List Char} {v : Json α} (h : Spells t v) :
    (v.Accepted .lenient ∧ readDocument t = .ok v.distinct) ∨
      (¬ v.Accepted .lenient ∧ ∃ fault, readDocument (α := α) t = .error (.number fault)) := by
  have hmark : ∀ c r, t = c :: r → c ≠ '\ufeff' := by
    have hseen : isSpace '\ufeff' = false ∧ ¬ Text.Visible '\ufeff' := by decide
    obtain ⟨hbefore, ht, -⟩ := h
    rename_i before t behind
    rintro c r hc rfl
    cases before with
    | nil =>
      obtain ⟨d, r', rfl, hd, -⟩ := starts_bare ht
      rw [List.nil_append, List.cons_append, List.cons.injEq] at hc
      exact hseen.2 (hc.1 ▸ hd)
    | cons d before =>
      rw [List.cons_append, List.cons.injEq] at hc
      have hd := hbefore d List.mem_cons_self
      rw [hc.1, hseen.1] at hd
      cases hd
  have hall : readDocument (α := α) t = readAll .lenient t := by
    cases t with
    | nil => rfl
    | cons c r => exact if_neg (hmark c r rfl)
  rw [hall]
  exact readAll_cases .lenient h

end Values

end Json
end SceneScript
