import SceneScript.Json.Printer
import SceneScript.Json.Reader
import SceneScript.Proofs.Scalar.Lawful
import SceneScript.Proofs.Text.Digits

/-!
# Numbers that were written

A written number is a sign, digits, maybe digits behind a point and maybe a power of ten, which can
be spelled in several ways. **The reader takes a number apart into just the parts it was put
together from** (`readParts?_spelled`), as long as what stands behind it does not go on like a
number. So a number is read as the value of its parts (`readSimple_spelled`).

The three layouts of numerals are three choices of parts, and in each the parts stand for the
numeral, up to zeros behind its digits (`exists_parts_text`): a real is written as a number that has
the value of the real.
-/

set_option autoImplicit false

namespace SceneScript
namespace Json

/-- No number goes on with this text. -/
def EndsNumber (rest : List Char) : Prop :=
  ∀ c, rest.head? = some c → c.isDigit = false ∧ c ≠ '.' ∧ c ≠ 'e' ∧ c ≠ 'E'

theorem endsNumber_nil : EndsNumber [] := fun _ h => nomatch h

theorem endsNumber_cons {c : Char} {rest : List Char}
    (h : c.isDigit = false ∧ c ≠ '.' ∧ c ≠ 'e' ∧ c ≠ 'E') : EndsNumber (c :: rest) :=
  fun d hd => by
    cases hd
    exact h

/-! ## Parts and their text -/

namespace NumberParts

/-- The fraction as it is written. -/
def fractionText (fraction : Option (List Char)) : List Char :=
  match fraction with
  | none => []
  | some digits => '.' :: digits

/-- The power of ten as it is written. -/
def powerText (power : Option (Bool × List Char)) : List Char :=
  match power with
  | none => []
  | some (negative, digits) => 'e' :: (if negative then '-' else '+') :: digits

/-- The number as it is written, without its sign. -/
def unsignedText (p : NumberParts) : List Char :=
  p.whole ++ (fractionText p.fraction ++ powerText p.power)

/-- The number as it is written. -/
def written (p : NumberParts) : List Char :=
  if p.negative then '-' :: p.unsignedText else p.unsignedText

/-- A text that says a power of ten: a letter, maybe a sign, and the digits. -/
inductive IsPowerText : Option (Bool × List Char) → List Char → Prop
  | none : IsPowerText none []
  | unsigned {letter : Char} {digits : List Char} : letter = 'e' ∨ letter = 'E' →
    IsPowerText (some (false, digits)) (letter :: digits)
  | signed {letter : Char} {negative : Bool} {digits : List Char} : letter = 'e' ∨ letter = 'E' →
    IsPowerText (some (negative, digits)) (letter :: (if negative then '-' else '+') :: digits)

theorem isPowerText_powerText (power : Option (Bool × List Char)) :
    IsPowerText power (powerText power) := by
  cases power with
  | none => exact .none
  | some p => exact .signed (.inl rfl)

/-- The number with its power of ten spelled in some way. -/
def spelled (p : NumberParts) (power : List Char) : List Char :=
  if p.negative then '-' :: (p.whole ++ (fractionText p.fraction ++ power))
  else p.whole ++ (fractionText p.fraction ++ power)

/-- Digits that stand before the point: a zero alone, or digits that start with another one. -/
def IsWhole (digits : List Char) : Prop :=
  digits = ['0'] ∨ ∃ c r, digits = c :: r ∧ c ≠ '0' ∧ ∀ d ∈ digits, d.isDigit = true

/-- Digits, at least one. -/
def IsDigits (digits : List Char) : Prop := digits ≠ [] ∧ ∀ d ∈ digits, d.isDigit = true

/-- The parts have the form of numbers. -/
structure WellFormed (p : NumberParts) : Prop where
  whole : IsWhole p.whole
  fraction : ∀ digits, p.fraction = some digits → IsDigits digits
  power : ∀ negative digits, p.power = some (negative, digits) → IsDigits digits

end NumberParts

open NumberParts

theorem isDigit_of_isWhole {digits : List Char} (h : IsWhole digits) :
    ∀ d ∈ digits, d.isDigit = true := by
  rcases h with rfl | ⟨c, r, -, -, h⟩
  · intro d hd
    rw [List.mem_singleton.mp hd]
    rfl
  · exact h

theorem isWhole_toDigits (n : Nat) : IsWhole (Nat.toDigits 10 n) := by
  by_cases h0 : n = 0
  · exact .inl (by rw [h0]; rfl)
  · obtain ⟨c, r, hs⟩ := List.exists_cons_of_ne_nil (Nat.toDigits_ne_nil (b := 10) (n := n))
    refine .inr ⟨c, r, hs, ?_, fun d => Text.isDigit_toDigits⟩
    have hc := Text.head_toDigits_ne_zero h0
    rw [hs] at hc
    exact fun e => hc (congrArg some e)

/-! ## Taking a number apart -/

theorem spanDigits_append {digits rest : List Char} (h : ∀ d ∈ digits, d.isDigit = true)
    (hr : ∀ c, rest.head? = some c → c.isDigit = false) :
    spanDigits (digits ++ rest) = (digits, rest) := by
  have hnil : rest.takeWhile Char.isDigit = [] ∧ rest.dropWhile Char.isDigit = rest := by
    cases rest with
    | nil => exact ⟨rfl, rfl⟩
    | cons c rest => simp [hr c rfl]
  unfold spanDigits
  rw [List.takeWhile_append_of_pos h, List.dropWhile_append_of_pos h, hnil.1, hnil.2,
    List.append_nil]

theorem readWhole?_append {digits rest : List Char} (h : IsWhole digits)
    (hr : ∀ c, rest.head? = some c → c.isDigit = false) :
    readWhole? (digits ++ rest) = some (digits, rest) := by
  rcases h with rfl | ⟨c, r, rfl, hc, hd⟩
  · rfl
  · have hspan := spanDigits_append hd hr
    rw [List.cons_append] at hspan ⊢
    unfold readWhole?
    dsimp only
    rw [if_neg hc, if_pos (hd c List.mem_cons_self), hspan]

/-- The sign that a power of ten may have, and what stands behind it. -/
def powerSign (s : List Char) : Bool × List Char :=
  match s with
  | [] => (false, [])
  | sign :: r => if sign = '-' then (true, r) else if sign = '+' then (false, r) else (false, s)

theorem readPower_cons (c : Char) (s : List Char) :
    readPower (c :: s) =
      if c = 'e' ∨ c = 'E' then
        if (spanDigits (powerSign s).2).1 = [] then (none, c :: s)
        else (some ((powerSign s).1, (spanDigits (powerSign s).2).1),
          (spanDigits (powerSign s).2).2)
      else (none, c :: s) := rfl

theorem powerSign_of_isDigit {c : Char} (h : c.isDigit = true) (s : List Char) :
    powerSign (c :: s) = (false, c :: s) := by
  have hminus : c ≠ '-' := by
    rintro rfl
    cases h
  have hplus : c ≠ '+' := by
    rintro rfl
    cases h
  unfold powerSign
  dsimp only
  rw [if_neg hminus, if_neg hplus]

theorem powerSign_sign (negative : Bool) (s : List Char) :
    powerSign ((if negative then '-' else '+') :: s) = (negative, s) := by
  cases negative <;> rfl

/-- However a power of ten is spelled, it is read. -/
theorem readPower_append {power : Option (Bool × List Char)} {text : List Char}
    (ht : IsPowerText power text)
    (h : ∀ negative digits, power = some (negative, digits) → IsDigits digits)
    {rest : List Char} (hr : EndsNumber rest) : readPower (text ++ rest) = (power, rest) := by
  cases ht with
  | none =>
    cases rest with
    | nil => rfl
    | cons c rest =>
      obtain ⟨-, -, he, hE⟩ := hr c rfl
      rw [List.nil_append, readPower_cons, if_neg (not_or.mpr ⟨he, hE⟩)]
  | @unsigned letter digits hl =>
    obtain ⟨hne, hd⟩ := h false digits rfl
    have hspan := spanDigits_append hd fun c hc => (hr c hc).1
    obtain ⟨c, digits, rfl⟩ := List.exists_cons_of_ne_nil hne
    rw [List.cons_append] at hspan
    rw [List.cons_append, List.cons_append, readPower_cons, if_pos hl,
      powerSign_of_isDigit (hd c List.mem_cons_self), hspan, if_neg hne]
  | @signed letter negative digits hl =>
    obtain ⟨hne, hd⟩ := h negative digits rfl
    have hspan := spanDigits_append hd fun c hc => (hr c hc).1
    rw [List.cons_append, List.cons_append, readPower_cons, if_pos hl, powerSign_sign, hspan,
      if_neg hne]

theorem readFraction_append {fraction : Option (List Char)}
    (h : ∀ digits, fraction = some digits → IsDigits digits) {rest : List Char}
    (hr : ∀ c, rest.head? = some c → c.isDigit = false ∧ c ≠ '.') :
    readFraction (fractionText fraction ++ rest) = (fraction, rest) := by
  cases fraction with
  | none =>
    cases rest with
    | nil => rfl
    | cons c rest =>
      show readFraction (c :: rest) = _
      unfold readFraction
      dsimp only
      rw [if_neg fun hc => (hr c rfl).2 hc.1]
  | some digits =>
    obtain ⟨hne, hd⟩ := h digits rfl
    have hspan := spanDigits_append hd fun c hc => (hr c hc).1
    unfold fractionText readFraction
    dsimp only [List.cons_append]
    rw [hspan]
    dsimp only
    rw [if_pos ⟨rfl, hne⟩]

theorem head_powerText {power : Option (Bool × List Char)} {text rest : List Char}
    (ht : IsPowerText power text) (hr : EndsNumber rest) (c : Char)
    (hc : (text ++ rest).head? = some c) : c.isDigit = false ∧ c ≠ '.' := by
  have hletter : ∀ {letter : Char}, letter = 'e' ∨ letter = 'E' →
      letter.isDigit = false ∧ letter ≠ '.' := by
    rintro _ (rfl | rfl)
    · exact ⟨rfl, by decide⟩
    · exact ⟨rfl, by decide⟩
  cases ht with
  | none => exact ⟨(hr c hc).1, (hr c hc).2.1⟩
  | unsigned hl =>
    cases hc
    exact hletter hl
  | signed hl =>
    cases hc
    exact hletter hl

theorem head_fractionText {power : Option (Bool × List Char)} {text rest : List Char}
    (ht : IsPowerText power text) (fraction : Option (List Char)) (hr : EndsNumber rest) (c : Char)
    (hc : (fractionText fraction ++ (text ++ rest)).head? = some c) : c.isDigit = false := by
  cases fraction with
  | none => exact (head_powerText ht hr c hc).1
  | some digits =>
    cases hc
    rfl

/-- A number starts with a digit, but for its sign. -/
theorem exists_whole {p : NumberParts} (h : p.WellFormed) :
    ∃ c r, p.whole = c :: r ∧ c.isDigit = true := by
  have hd := isDigit_of_isWhole h.whole
  rcases h.whole with hw | ⟨c, r, hw, -, -⟩
  · exact ⟨'0', [], hw, rfl⟩
  · exact ⟨c, r, hw, hd c (by rw [hw]; exact List.mem_cons_self)⟩

theorem visible_fractionText {fraction : Option (List Char)}
    (h : ∀ digits, fraction = some digits → IsDigits digits) :
    ∀ c ∈ fractionText fraction, Text.Visible c := by
  cases fraction with
  | none => simp [fractionText]
  | some digits =>
    intro c hc
    rcases List.mem_cons.mp hc with rfl | hc
    · decide
    · exact Text.visible_of_isDigit ((h digits rfl).2 c hc)

theorem visible_powerText {power : Option (Bool × List Char)} {text : List Char}
    (ht : IsPowerText power text)
    (h : ∀ negative digits, power = some (negative, digits) → IsDigits digits) :
    ∀ c ∈ text, Text.Visible c := by
  have hletter : ∀ {letter : Char}, letter = 'e' ∨ letter = 'E' → Text.Visible letter := by
    rintro _ (rfl | rfl)
    · decide
    · decide
  cases ht with
  | none => exact List.forall_mem_nil _
  | unsigned hl =>
    exact List.forall_mem_cons.mpr
      ⟨hletter hl, fun c hc => Text.visible_of_isDigit ((h _ _ rfl).2 c hc)⟩
  | @signed letter negative digits hl =>
    have hsign : Text.Visible (if negative then '-' else '+') := by cases negative <;> decide
    exact List.forall_mem_cons.mpr ⟨hletter hl, List.forall_mem_cons.mpr
      ⟨hsign, fun c hc => Text.visible_of_isDigit ((h _ _ rfl).2 c hc)⟩⟩

/-- A number is made of digits, and of signs, a point and a letter between them. -/
theorem visible_spelled {p : NumberParts} (h : p.WellFormed) {power : List Char}
    (ht : IsPowerText p.power power) : ∀ c ∈ p.spelled power, Text.Visible c := by
  have hunsigned : ∀ c ∈ p.whole ++ (fractionText p.fraction ++ power), Text.Visible c := by
    intro c hc
    rcases List.mem_append.mp hc with hc | hc
    · exact Text.visible_of_isDigit (isDigit_of_isWhole h.whole c hc)
    rcases List.mem_append.mp hc with hc | hc
    · exact visible_fractionText h.fraction c hc
    · exact visible_powerText ht h.power c hc
  unfold spelled
  split
  · exact List.forall_mem_cons.mpr ⟨by decide, hunsigned⟩
  · exact hunsigned

theorem visible_written {p : NumberParts} (h : p.WellFormed) :
    ∀ c ∈ p.written, Text.Visible c :=
  visible_spelled h (isPowerText_powerText p.power)

/-- The sign that a number may have, and what stands behind it. -/
def numberSign (s : List Char) : Bool × List Char :=
  match s with
  | [] => (false, [])
  | c :: r => if c = '-' then (true, r) else (false, s)

/-- A number is read part by part, each behind the one before. -/
theorem readParts?_eq (s : List Char) :
    readParts? s = (readWhole? (numberSign s).2).map fun p =>
      (⟨(numberSign s).1, p.1, (readFraction p.2).1, (readPower (readFraction p.2).2).1⟩,
        (readPower (readFraction p.2).2).2) := by
  unfold readParts?
  dsimp only
  split
  · next hw =>
    have hnone : readWhole? (numberSign s).2 = none := hw
    rw [hnone]
    rfl
  · next w r hw =>
    have hsome : readWhole? (numberSign s).2 = some (w, r) := hw
    rw [hsome]
    rfl

theorem numberSign_spelled {p : NumberParts} (h : p.WellFormed) (power rest : List Char) :
    numberSign (p.spelled power ++ rest) =
      (p.negative, p.whole ++ (fractionText p.fraction ++ (power ++ rest))) := by
  have happ : p.whole ++ (fractionText p.fraction ++ power) ++ rest =
      p.whole ++ (fractionText p.fraction ++ (power ++ rest)) := by simp
  unfold spelled
  cases hn : p.negative
  · rw [if_neg Bool.false_ne_true, happ]
    obtain ⟨c, r, hs, hc⟩ := exists_whole h
    have hminus : c ≠ '-' := by
      rintro rfl
      cases hc
    rw [hs, List.cons_append]
    exact if_neg hminus
  · rw [if_pos rfl, List.cons_append, happ]
    rfl

/-- **A number is taken apart into its parts**, however its power of ten is spelled. -/
theorem readParts?_spelled {p : NumberParts} (h : p.WellFormed) {power : List Char}
    (ht : IsPowerText p.power power) {rest : List Char} (hr : EndsNumber rest) :
    readParts? (p.spelled power ++ rest) = some (p, rest) := by
  rw [readParts?_eq, numberSign_spelled h]
  dsimp only
  rw [readWhole?_append h.whole (head_fractionText ht p.fraction hr)]
  dsimp only [Option.map_some]
  rw [readFraction_append h.fraction (head_powerText ht hr)]
  dsimp only
  rw [readPower_append ht h.power hr]

/-! ## Numerals -/

/-- The parts stand for the numeral, as a real and up to zeros behind its digits. -/
structure StandsFor (p : NumberParts) (d : Decimal) : Prop where
  wellFormed : p.WellFormed
  isReal : ¬ (p.fraction.isNone = true ∧ p.power.isNone = true)
  decimal : ∃ k : Nat, p.decimal = ⟨d.negative, d.digits * 10 ^ k, d.exponent - k⟩

theorem decimal_of_no_power {negative : Bool} {whole fraction : List Char} :
    (NumberParts.mk negative whole (some fraction) none).decimal =
      ⟨negative, Text.ofDigits (Text.digitValues (whole ++ fraction)),
        -(fraction.length : Int)⟩ := by
  unfold NumberParts.decimal
  simp

theorem isDigits_replicate_append (k : Nat) (n : Nat) :
    IsDigits (List.replicate k '0' ++ Nat.toDigits 10 n) := by
  refine ⟨by simp, fun d hd => ?_⟩
  rcases List.mem_append.mp hd with h | h
  · rw [List.eq_of_mem_replicate h]
    rfl
  · exact Text.isDigit_toDigits h

/-- Digits with zeros behind them, for a numeral that is zero without zeros. -/
theorem isWhole_append_replicate {n k : Nat} (h : n = 0 → k = 0) :
    IsWhole (Nat.toDigits 10 n ++ List.replicate k '0') := by
  rcases isWhole_toDigits n with h0 | ⟨c, r, hs, hc, hd⟩
  · have hn : n = 0 := by
      have := Text.ofDigits_toDigits n
      rw [h0] at this
      exact this.symm
    rw [h hn, List.replicate_zero, List.append_nil]
    exact .inl h0
  · refine .inr ⟨c, r ++ List.replicate k '0', by rw [hs]; rfl, hc, fun d hm => ?_⟩
    rcases List.mem_append.mp hm with hm | hm
    · exact hd d hm
    · rw [List.eq_of_mem_replicate hm]
      rfl

/-- The first digits of a number that is not zero. -/
theorem isWhole_take {n k : Nat} (h : n ≠ 0) (hk : 0 < k) :
    IsWhole ((Nat.toDigits 10 n).take k) := by
  obtain ⟨c, r, hs⟩ := List.exists_cons_of_ne_nil (Nat.toDigits_ne_nil (b := 10) (n := n))
  have hc := Text.head_toDigits_ne_zero h
  obtain ⟨l, rfl⟩ := Nat.exists_eq_succ_of_ne_zero hk.ne'
  refine .inr ⟨c, r.take l, by rw [hs]; rfl, ?_, fun d hd =>
    Text.isDigit_toDigits (List.mem_of_mem_take hd)⟩
  rw [hs] at hc
  exact fun e => hc (congrArg some e)

/-- Digits around a point stand for a numeral by their value and the place of the point. -/
theorem standsFor_of_no_power {d : Decimal} (whole fraction : List Char) (k : Nat)
    (hw : IsWhole whole) (hf : IsDigits fraction)
    (hvalue : Text.ofDigits (Text.digitValues (whole ++ fraction)) = d.digits * 10 ^ k)
    (hplace : -(fraction.length : Int) = d.exponent - k) :
    StandsFor ⟨d.negative, whole, some fraction, none⟩ d where
  wellFormed := by
    refine ⟨hw, ?_, fun _ _ h => nomatch h⟩
    rintro _ ⟨⟩
    exact hf
  isReal := by simp
  decimal := ⟨k, by rw [decimal_of_no_power, hvalue, hplace]⟩

theorem positional_standsFor (d : Decimal) (h0 : d.digits = 0 → d.exponent = 0) :
    ∃ p : NumberParts, p.negative = d.negative ∧ d.positional = p.unsignedText ∧
      StandsFor p d := by
  have hvalue := Text.ofDigits_toDigits d.digits
  have hdigits : ∀ c ∈ Nat.toDigits 10 d.digits, c.isDigit = true :=
    fun c hc => Text.isDigit_toDigits hc
  unfold Decimal.positional
  dsimp only
  split
  · next he =>
    -- the point stands behind the digits and some zeros
    have hz : Nat.toDigits 10 d.digits ++ List.replicate d.exponent.toNat '0' ++ ['0'] =
        Nat.toDigits 10 d.digits ++ List.replicate (d.exponent.toNat + 1) '0' := by
      rw [List.append_assoc, ← List.replicate_succ']
    refine ⟨_, rfl, ?_, standsFor_of_no_power
      (Nat.toDigits 10 d.digits ++ List.replicate d.exponent.toNat '0') ['0']
      (d.exponent.toNat + 1) (isWhole_append_replicate fun h => by rw [h0 h]; rfl)
      ⟨by simp, by simp⟩ ?_ ?_⟩
    · simp [unsignedText, fractionText, powerText]
    · rw [hz, Text.ofDigits_append_replicate, hvalue]
    · push_cast
      rw [Int.toNat_of_nonneg he]
      simp
  · next he =>
    have hd0 : d.digits ≠ 0 := fun h => he (by rw [h0 h])
    generalize hs : Nat.toDigits 10 d.digits = s at hvalue hdigits ⊢
    split
    · next hp =>
      -- the point stands among the digits
      have hk : (d.exponent + s.length).toNat < s.length := by omega
      refine ⟨_, rfl, ?_, standsFor_of_no_power (s.take (d.exponent + s.length).toNat)
        (s.drop (d.exponent + s.length).toNat) 0
        (hs ▸ isWhole_take hd0 (k := (d.exponent + s.length).toNat) (by omega))
        ⟨by simp [List.drop_eq_nil_iff]; omega, fun c hc => hdigits c (List.mem_of_mem_drop hc)⟩
        ?_ ?_⟩
      · simp [unsignedText, fractionText, powerText]
      · rw [List.take_append_drop, hvalue, Nat.pow_zero, Nat.mul_one]
      · rw [List.length_drop]
        omega
    · next hp =>
      -- the point stands before the digits and some zeros
      have hz : ['0'] ++ (List.replicate (-(d.exponent + s.length)).toNat '0' ++ s) =
          List.replicate ((-(d.exponent + s.length)).toNat + 1) '0' ++ s := by
        rw [List.replicate_succ]
        rfl
      refine ⟨_, rfl, ?_, standsFor_of_no_power ['0']
        (List.replicate (-(d.exponent + s.length)).toNat '0' ++ s) 0 (.inl rfl)
        (hs ▸ isDigits_replicate_append _ _) ?_ ?_⟩
      · simp [unsignedText, fractionText, powerText]
      · rw [hz, Text.ofDigits_replicate_append, hvalue, Nat.pow_zero, Nat.mul_one]
      · rw [List.length_append, List.length_replicate]
        omega

theorem signed_natAbs (n : Int) : Text.signed (decide (n < 0)) n.natAbs = n := by
  unfold Text.signed
  split
  · next h =>
    rw [decide_eq_true_eq] at h
    omega
  · next h =>
    rw [decide_eq_true_eq] at h
    omega

theorem isWhole_singleton {c : Char} (h : c.isDigit = true) : IsWhole [c] := by
  by_cases hc : c = '0'
  · exact .inl (by rw [hc])
  · exact .inr ⟨c, [], rfl, hc, fun d hd => by rw [List.mem_singleton.mp hd]; exact h⟩

theorem scientific_standsFor (d : Decimal) :
    ∃ p : NumberParts, p.negative = d.negative ∧ d.scientific = p.unsignedText ∧
      StandsFor p d := by
  obtain ⟨c, r, hs⟩ := List.exists_cons_of_ne_nil (Nat.toDigits_ne_nil (b := 10) (n := d.digits))
  have hdigit : ∀ x ∈ c :: r, x.isDigit = true := fun x hx => Text.isDigit_toDigits (hs ▸ hx)
  have hvalue := Text.ofDigits_toDigits d.digits
  have hplace : d.leadingPlace = d.exponent + r.length := by
    unfold Decimal.leadingPlace
    rw [hs, List.length_cons]
    push_cast
    omega
  -- the fraction is left out where there is one digit only
  let fraction : Option (List Char) := if r = [] then none else some r
  have hfraction : fraction.getD [] = r := by
    by_cases hr : r = [] <;> simp [fraction, hr]
  refine ⟨⟨d.negative, [c], fraction, some (decide (d.leadingPlace < 0),
    List.replicate (2 - (Nat.toDigits 10 d.leadingPlace.natAbs).length) '0' ++
      Nat.toDigits 10 d.leadingPlace.natAbs)⟩, rfl, ?_,
    ⟨isWhole_singleton (hdigit c List.mem_cons_self), ?_, ?_⟩, by simp, 0, ?_⟩
  · unfold Decimal.scientific unsignedText
    rw [hs]
    cases r with
    | nil => simp [fraction, fractionText, powerText]
    | cons x r => simp [fraction, fractionText, powerText]
  · intro digits h
    by_cases hr : r = []
    · simp [fraction, hr] at h
    · simp only [fraction, if_neg hr, Option.some.injEq] at h
      subst h
      exact ⟨hr, fun x hx => hdigit x (List.mem_cons_of_mem _ hx)⟩
  · rintro _ _ ⟨⟩
    exact isDigits_replicate_append _ _
  · unfold NumberParts.decimal
    dsimp only
    rw [hfraction, Text.ofDigits_replicate_append, Text.ofDigits_toDigits, signed_natAbs, hplace,
      List.singleton_append, ← hs, hvalue]
    congr 1
    · simp
    · simp

/-- **A numeral is written by parts that stand for it.** -/
theorem exists_parts_text (d : Decimal) (h0 : d.digits = 0 → d.exponent = 0) :
    ∃ p : NumberParts, d.text = p.written ∧ StandsFor p d := by
  unfold Decimal.text written
  dsimp only
  by_cases hrange : Decimal.positionalFrom ≤ d.leadingPlace ∧
      d.leadingPlace < Decimal.positionalBelow
  · obtain ⟨p, hn, ht, hp⟩ := positional_standsFor d h0
    rw [if_pos hrange]
    exact ⟨p, by rw [hn, ht], hp⟩
  · obtain ⟨p, hn, ht, hp⟩ := scientific_standsFor d
    rw [if_neg hrange]
    exact ⟨p, by rw [hn, ht], hp⟩

/-! ## Reading numbers -/

theorem exists_spelled {p : NumberParts} (h : p.WellFormed) (power : List Char) :
    ∃ c r, p.spelled power = c :: r ∧ (c.isDigit = true ∨ c = '-') := by
  obtain ⟨c, r, hs, hc⟩ := exists_whole h
  unfold spelled
  rw [hs]
  split
  · exact ⟨'-', _, rfl, .inr rfl⟩
  · exact ⟨c, _, rfl, .inl hc⟩

variable {α : Type}

/-- A number is no word and no name of a number that is none, **so it is read as the value of its
    parts**. -/
theorem readSimple_spelled [Scalar α] {p : NumberParts} (h : p.WellFormed) {power : List Char}
    (ht : IsPowerText p.power power) {rest : List Char} (hr : EndsNumber rest) (dialect : Dialect) :
    readSimple (α := α) dialect (p.spelled power ++ rest) =
      match numberValue dialect p (p.spelled power) with
      | .error fault => .error (.number fault)
      | .ok v => .ok (v, rest) := by
  obtain ⟨c, r, hs, hc⟩ := exists_whole h
  have hlo := Text.toNat_of_isDigit hc
  have hne : ∀ w : Char, 0x3A ≤ w.toNat → w ≠ c := by
    rintro w hw rfl
    omega
  have hword : readWord? (α := α) (p.spelled power ++ rest) = none := by
    unfold readWord? words spelled
    split
    · rfl
    · simp [hs, List.isPrefixOf?, hne 'n' (by decide), hne 't' (by decide), hne 'f' (by decide)]
  have hname : readNonFinite? (p.spelled power ++ rest) = none := by
    unfold readNonFinite? spelled
    split
    · simp [hs, List.isPrefixOf?, nonFiniteName, hne 'I' (by decide)]
    · have hminus : '-' ≠ c := by
        rintro rfl
        cases hc
      simp [hs, List.isPrefixOf?, nonFiniteName, hne 'I' (by decide), hne 'N' (by decide), hminus]
  have htake : (p.spelled power ++ rest).take ((p.spelled power ++ rest).length - rest.length) =
      p.spelled power := by
    rw [List.length_append, Nat.add_sub_cancel, List.take_left]
  unfold readSimple readNumber
  rw [hword, hname]
  dsimp only
  rw [readParts?_spelled h ht hr]
  dsimp only
  cases hvalue : numberValue (α := α) dialect p (p.spelled power) with
  | error fault => rw [htake, hvalue]
  | ok v => rw [htake, hvalue]

/-- The parts of a whole number with a sign. The sign of a zero can be either. -/
def signedParts (negative : Bool) (n : Int) : NumberParts :=
  ⟨negative, Nat.toDigits 10 n.natAbs, none, none⟩

/-- The parts of a whole number. -/
def wholeParts (n : Int) : NumberParts := signedParts (decide (n < 0)) n

theorem wellFormed_signedParts (negative : Bool) (n : Int) :
    (signedParts negative n).WellFormed :=
  ⟨isWhole_toDigits _, fun _ h => (nomatch h), fun _ _ h => (nomatch h)⟩

theorem wellFormed_wholeParts (n : Int) : (wholeParts n).WellFormed :=
  wellFormed_signedParts _ n

/-- A number that the dialect does not refuse. A whole number with too many digits always is, and
    the strict one refuses besides what is not in range. -/
def NumberAccepted [Scalar α] (dialect : Dialect) : Json α → Prop
  | .int n => (Nat.toDigits 10 n.natAbs).length ≤ Text.maxDigits ∧
      (dialect = .strict → (Scalar.ofInt? n : Option α).isSome = true)
  | .real x => dialect = .strict → Scalar.isFinite x = true
  | _ => True

/-- **A whole number is read as that whole number, or refused.** -/
theorem numberValue_signedParts [Scalar α] {negative : Bool} {n : Int}
    (hn : Text.signed negative n.natAbs = n) (dialect : Dialect) (numeral : List Char) :
    (NumberAccepted dialect (.int n : Json α) →
      numberValue dialect (signedParts negative n) numeral = .ok (.int n : Json α)) ∧
    (¬ NumberAccepted dialect (.int n : Json α) →
      ∃ fault, numberValue (α := α) dialect (signedParts negative n) numeral = .error fault) := by
  unfold numberValue signedParts NumberAccepted
  dsimp only [Option.isNone_none]
  rw [if_pos ⟨rfl, rfl⟩]
  by_cases hlen : (Nat.toDigits 10 n.natAbs).length ≤ Text.maxDigits
  · rw [Text.readDigits_toDigits hlen]
    dsimp only
    rw [hn]
    by_cases hout : dialect = .strict ∧ (Scalar.ofInt? n : Option α).isNone = true
    · rw [if_pos hout]
      refine ⟨fun h => ?_, fun _ => ⟨_, rfl⟩⟩
      have hin := h.2 hout.1
      rw [Option.isNone_iff_eq_none.mp hout.2] at hin
      cases hin
    · rw [if_neg hout]
      refine ⟨fun _ => rfl, fun h => absurd ⟨hlen, fun hs => ?_⟩ h⟩
      rw [Option.isSome_iff_ne_none]
      exact fun h0 => hout ⟨hs, Option.isNone_iff_eq_none.mpr h0⟩
  · have hread : ∃ e, Text.readDigits (Text.digitValues (Nat.toDigits 10 n.natAbs)) = .error e := by
      unfold Text.readDigits
      rw [if_neg (by rwa [Text.digitValues, List.length_map])]
      exact ⟨_, rfl⟩
    obtain ⟨e, he⟩ := hread
    rw [he]
    exact ⟨fun h => absurd h.1 hlen, fun _ => ⟨_, rfl⟩⟩

/-- The parts of a number that is a real: it has a fraction or a power of ten. -/
def IsReal (p : NumberParts) : Prop := ¬ (p.fraction.isNone = true ∧ p.power.isNone = true)

/-- **A real is read as the value of its numeral, or refused.** -/
theorem numberValue_real [Scalar α] {p : NumberParts} (hp : IsReal p) (dialect : Dialect)
    (numeral : List Char) :
    (NumberAccepted dialect (.real (Scalar.ofDecimal p.decimal) : Json α) →
      numberValue dialect p numeral = .ok (.real (Scalar.ofDecimal p.decimal) : Json α)) ∧
    (¬ NumberAccepted dialect (.real (Scalar.ofDecimal p.decimal) : Json α) →
      ∃ fault, numberValue (α := α) dialect p numeral = .error fault) := by
  unfold numberValue NumberAccepted
  dsimp only
  rw [if_neg hp]
  by_cases hout : dialect = .strict ∧ ¬ Scalar.isFinite (Scalar.ofDecimal p.decimal : α) = true
  · rw [if_pos hout]
    exact ⟨fun h => absurd (h hout.1) hout.2, fun _ => ⟨_, rfl⟩⟩
  · rw [if_neg hout]
    refine ⟨fun _ => rfl, fun h => absurd (fun hs => ?_) h⟩
    by_contra hx
    exact hout ⟨hs, hx⟩

/-! ## Numbers that were printed -/

theorem wholeText_eq {n : Int} {text : List Char} (h : wholeText n = .ok text) :
    text = (wholeParts n).written ∧ (Nat.toDigits 10 n.natAbs).length ≤ Text.maxDigits := by
  unfold wholeText at h
  dsimp only at h
  split at h
  · next hlen =>
    refine ⟨?_, hlen⟩
    rw [← Except.ok.inj h]
    unfold written unsignedText wholeParts signedParts
    simp [fractionText, powerText]
  · cases h

variable [WrittenScalar α] [Scalar.Readable α]

/-- **A real is printed as a number that has its value.** -/
theorem exists_parts_realText {x : α} {text : List Char} (h : realText x = .ok text) :
    ∃ p : NumberParts, text = p.written ∧ p.WellFormed ∧ IsReal p ∧
      (Scalar.ofDecimal p.decimal : α) = x ∧ Scalar.isFinite x = true := by
  unfold realText at h
  split at h
  · next hx =>
    obtain ⟨p, ht, hp⟩ := exists_parts_text (WrittenScalar.toDecimal x)
      (Scalar.Readable.exponent_of_digits_eq_zero hx)
    refine ⟨p, by rw [← ht]; exact (Except.ok.inj h).symm, hp.wellFormed, hp.isReal, ?_, hx⟩
    obtain ⟨k, hk⟩ := hp.decimal
    rw [hk, Scalar.Lawful.ofDecimal_mul_pow]
    exact Scalar.Readable.ofDecimal_toDecimal hx
  · cases h

end Json
end SceneScript
