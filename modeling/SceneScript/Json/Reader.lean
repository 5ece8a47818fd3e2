import SceneScript.Json.Basic
import SceneScript.Text.Numeral
import SceneScript.Text.Utf8

/-!
# Reading JSON

The reader takes the value at the start of a text and hands back what stands behind
it, so that a value embedded in a script line can be found without knowing where it
ends. The whole of a text is a value when nothing but space is left.

There are two dialects. A script's JSON is **strict**: its numbers have to be finite
and within the range of the scalars, and the three names of non-finite numbers are
refused. Other documents are read **leniently**: the names stand for their values and
a numeral beyond the range is an infinity.

A mistake is reported with the number of characters left from it to the end of the
text, which is all that is needed to count its position.
-/

set_option autoImplicit false

namespace SceneScript
namespace Json

open Text (TooManyDigits)

/-! ## Reports -/

/-- What the reader expected or met. -/
inductive Mistake where
  | value
  | propertyName
  | colon
  | comma
  | unterminatedString
  | controlCharacter
  | escape
  | unicodeEscape
  | extraData
  | byteOrderMark
deriving Repr, DecidableEq

def Mistake.message : Mistake → String
  | .value => "Expecting value"
  | .propertyName => "Expecting property name enclosed in double quotes"
  | .colon => "Expecting ':' delimiter"
  | .comma => "Expecting ',' delimiter"
  | .unterminatedString => "Unterminated string starting at"
  | .controlCharacter => "Invalid control character at"
  | .escape => "Invalid \\escape"
  | .unicodeEscape => "Invalid \\uXXXX escape"
  | .extraData => "Extra data"
  | .byteOrderMark => "Unexpected UTF-8 BOM (decode using utf-8-sig)"

/-- A number that the text writes well and that is refused all the same. -/
inductive NumberFault where
  | nonFinite (name : NonFinite)
  | outOfRange (numeral : String)
  | tooManyDigits (e : TooManyDigits)
deriving Repr, DecidableEq

/-- The name of a number that is none. -/
def nonFiniteName : NonFinite → String
  | .nan => "NaN"
  | .infinity => "Infinity"
  | .negativeInfinity => "-Infinity"

def NumberFault.message : NumberFault → String
  | .nonFinite name => "non-standard JSON constant " ++ nonFiniteName name
  | .outOfRange numeral => "number out of range: " ++ numeral
  | .tooManyDigits e => e.message

/-- Why a text was not read. -/
inductive ReadError where
  /-- A mistake, and how many characters are left from it on. -/
  | malformed (mistake : Mistake) (left : Nat)
  | number (fault : NumberFault)
deriving Repr, DecidableEq

/-- Which numbers are accepted. -/
inductive Dialect where
  | strict
  | lenient
deriving Repr, DecidableEq

/-! ## Space, strings -/

/-- The four characters that may stand between the parts of a value. -/
def isSpace (c : Char) : Bool := c == ' ' || c == '\t' || c == '\n' || c == '\r'

def skipSpace (s : List Char) : List Char := s.dropWhile isSpace

/-- The character that a one-letter escape stands for. -/
def unescape? (c : Char) : Option Char :=
  if c = '"' ∨ c = '\\' ∨ c = '/' then some c
  else if c = 'b' then some '\x08'
  else if c = 'f' then some '\x0c'
  else if c = 'n' then some '\n'
  else if c = 'r' then some '\r'
  else if c = 't' then some '\t'
  else none

/-- The value of four hexadecimal digits. -/
def hexValues? (a b c d : Char) : Option Nat := do
  let a ← Text.hexValue? a
  let b ← Text.hexValue? b
  let c ← Text.hexValue? c
  let d ← Text.hexValue? d
  return ((a * 16 + b) * 16 + c) * 16 + d

/-- A unit that can only be the first half of a pair. -/
def isHighUnit (n : Nat) : Bool := decide (0xD800 ≤ n) && decide (n ≤ 0xDBFF)

/-- A unit that can only be the second half of a pair. -/
def isLowUnit (n : Nat) : Bool := decide (0xDC00 ≤ n) && decide (n ≤ 0xDFFF)

/-- The first half of a pair that has found no second half yet. -/
def pendingText (pending : Option Nat) : List Char :=
  match pending with
  | some _ => [Text.replacement]
  | none => []

/-- The characters that a 16-bit unit completes, and the first half that it leaves
    open. -/
def joinUnit (pending : Option Nat) (n : Nat) : List Char × Option Nat :=
  if isHighUnit n then (pendingText pending, some n)
  else if isLowUnit n then
    match pending with
    | some high => ([Char.ofNat (0x10000 + (high - 0xD800) * 0x400 + (n - 0xDC00))], none)
    | none => ([Text.replacement], none)
  else (pendingText pending ++ [Char.ofNat n], none)

/-- The text of a string up to its closing quote, and what stands behind it.
    `start` counts the characters from the opening quote on, and `pending` is the
    first half of a pair of escapes, if one was just read. -/
def readString (start : Nat) (pending : Option Nat) (s : List Char) :
    Except ReadError (List Char × List Char) :=
  match s with
  | [] => .error (.malformed .unterminatedString start)
  | c :: s₁ =>
    if c = '"' then .ok (pendingText pending, s₁)
    else if c = '\\' then
      match s₁ with
      | [] => .error (.malformed .unterminatedString start)
      | e :: s₂ =>
        if e = 'u' then
          match s₂ with
          | h₁ :: h₂ :: h₃ :: h₄ :: s₃ =>
            match hexValues? h₁ h₂ h₃ h₄ with
            | none => .error (.malformed .unicodeEscape s₁.length)
            | some n =>
              if s₃.isEmpty then .error (.malformed .unicodeEscape s₁.length)
              else
                let (cs, pending) := joinUnit pending n
                (readString start pending s₃).map fun (t, r) => (cs ++ t, r)
          | _ => .error (.malformed .unicodeEscape s₁.length)
        else
          match unescape? e with
          | none => .error (.malformed .escape s.length)
          | some d => (readString start none s₂).map fun (t, r) => (pendingText pending ++ d :: t, r)
    else if c.toNat < 0x20 then .error (.malformed .controlCharacter s.length)
    else (readString start none s₁).map fun (t, r) => (pendingText pending ++ c :: t, r)

/-! ## Numbers -/

/-- The parts of a written number. -/
structure NumberParts where
  negative : Bool
  whole : List Char
  /-- The digits behind the point, if there is one. -/
  fraction : Option (List Char)
  /-- The sign of the power of ten and its digits, if there is one. -/
  power : Option (Bool × List Char)

/-- The digits a text starts with, and the rest. -/
def spanDigits (s : List Char) : List Char × List Char :=
  (s.takeWhile Char.isDigit, s.dropWhile Char.isDigit)

/-- The digits before the point: a zero alone, or digits that start with another one. -/
def readWhole? (s : List Char) : Option (List Char × List Char) :=
  match s with
  | [] => none
  | c :: r =>
    if c = '0' then some (['0'], r)
    else if c.isDigit then some (spanDigits s)
    else none

/-- A point with digits behind it, if the text starts with them. -/
def readFraction (s : List Char) : Option (List Char) × List Char :=
  match s with
  | [] => (none, [])
  | c :: r =>
    let (digits, rest) := spanDigits r
    if c = '.' ∧ digits ≠ [] then (some digits, rest) else (none, s)

/-- A power of ten, if the text starts with one. -/
def readPower (s : List Char) : Option (Bool × List Char) × List Char :=
  match s with
  | [] => (none, [])
  | c :: r =>
    if c = 'e' ∨ c = 'E' then
      let (negative, unsigned) :=
        match r with
        | [] => (false, [])
        | sign :: r' => if sign = '-' then (true, r') else if sign = '+' then (false, r') else (false, r)
      let (digits, rest) := spanDigits unsigned
      if digits = [] then (none, s) else (some (negative, digits), rest)
    else (none, s)

/-- The number that a text starts with, as far as it fits the form of numbers. -/
def readParts? (s : List Char) : Option (NumberParts × List Char) :=
  let (negative, s₁) :=
    match s with
    | [] => (false, [])
    | c :: r => if c = '-' then (true, r) else (false, s)
  match readWhole? s₁ with
  | none => none
  | some (whole, s₂) =>
    let (fraction, s₃) := readFraction s₂
    let (power, s₄) := readPower s₃
    some (⟨negative, whole, fraction, power⟩, s₄)

/-- A number with a point or a power of ten, as a numeral. -/
def NumberParts.decimal (p : NumberParts) : Decimal :=
  let fraction := p.fraction.getD []
  let power : Int :=
    match p.power with
    | none => 0
    | some (negative, digits) =>
      Text.signed negative (Text.ofDigits (Text.digitValues digits))
  ⟨p.negative, Text.ofDigits (Text.digitValues (p.whole ++ fraction)), power - fraction.length⟩

variable {α : Type} [Scalar α]

/-- The value of a written number. `numeral` is its text. -/
def numberValue (dialect : Dialect) (p : NumberParts) (numeral : List Char) :
    Except NumberFault (Json α) :=
  let beyond : NumberFault := .outOfRange (String.ofList (numeral.take 32))
  if p.fraction.isNone ∧ p.power.isNone then
    match Text.readDigits (Text.digitValues p.whole) with
    | .error e => .error (.tooManyDigits e)
    | .ok m =>
      let n := Text.signed p.negative m
      if dialect = .strict ∧ (Scalar.ofInt? n : Option α).isNone then .error beyond
      else .ok (.int n)
  else
    let x : α := Scalar.ofDecimal p.decimal
    if dialect = .strict ∧ ¬ Scalar.isFinite x then .error beyond else .ok (.real x)

/-- A number, or the mistake that none stands here. -/
def readNumber (dialect : Dialect) (s : List Char) : Except ReadError (Json α × List Char) :=
  match readParts? s with
  | none => .error (.malformed .value s.length)
  | some (p, r) =>
    match numberValue dialect p (s.take (s.length - r.length)) with
    | .error fault => .error (.number fault)
    | .ok v => .ok (v, r)

/-! ## Values -/

/-- The words that are values. -/
def words : List (List Char × Json α) :=
  [(['n', 'u', 'l', 'l'], .null), (['t', 'r', 'u', 'e'], .bool true),
   (['f', 'a', 'l', 's', 'e'], .bool false)]

/-- A word that a text starts with, and the rest. -/
def readWord? (s : List Char) : Option (Json α × List Char) :=
  words.findSome? fun (word, v) => (word.isPrefixOf? s).map fun r => (v, r)

/-- The name of a non-finite number that a text starts with, and the rest. -/
def readNonFinite? (s : List Char) : Option (NonFinite × List Char) :=
  [NonFinite.nan, .infinity, .negativeInfinity].findSome? fun x =>
    ((nonFiniteName x).toList.isPrefixOf? s).map fun r => (x, r)

/-- A value that is neither a string nor composed of others. -/
def readSimple (dialect : Dialect) (s : List Char) : Except ReadError (Json α × List Char) :=
  match readWord? s with
  | some found => .ok found
  | none =>
    match readNonFinite? s with
    | some (name, r) =>
      match dialect, (Scalar.nonFinite? name : Option α) with
      | .lenient, some x => .ok (.real x, r)
      | _, _ => .error (.number (.nonFinite name))
    | none => readNumber dialect s

mutual

/-- The value that a text starts with, and what stands behind it. Of two steps at
    least one takes a character, so `fuel` above twice the length of the text is
    never used up. -/
def readValue (dialect : Dialect) (fuel : Nat) (s : List Char) :
    Except ReadError (Json α × List Char) :=
  match fuel with
  | 0 => .error (.malformed .value s.length)
  | fuel + 1 =>
    match s with
    | [] => .error (.malformed .value 0)
    | c :: r =>
      if c = '"' then
        match readString s.length none r with
        | .error e => .error e
        | .ok (t, r) => .ok (.str (String.ofList t), r)
      else if c = '{' then
        match skipSpace r with
        | [] => .error (.malformed .propertyName 0)
        | d :: r' =>
          if d = '}' then .ok (.obj [], r')
          else
            match readMembers dialect fuel (d :: r') with
            | .error e => .error e
            | .ok (members, rest) => .ok (.obj (Fields.ofPairs members), rest)
      else if c = '[' then
        match skipSpace r with
        | [] => .error (.malformed .value 0)
        | d :: r' =>
          if d = ']' then .ok (.arr [], r')
          else
            match readItems dialect fuel (d :: r') with
            | .error e => .error e
            | .ok (items, rest) => .ok (.arr items, rest)
      else readSimple dialect s

/-- The members of an object from a name on, to behind the closing brace. -/
def readMembers (dialect : Dialect) (fuel : Nat) (s : List Char) :
    Except ReadError (List (String × Json α) × List Char) :=
  match fuel with
  | 0 => .error (.malformed .propertyName s.length)
  | fuel + 1 =>
    match s with
    | [] => .error (.malformed .propertyName 0)
    | c :: r =>
      if c ≠ '"' then .error (.malformed .propertyName s.length)
      else
        match readString s.length none r with
        | .error e => .error e
        | .ok (name, r) =>
          match skipSpace r with
          | [] => .error (.malformed .colon 0)
          | d :: r =>
            if d ≠ ':' then .error (.malformed .colon (d :: r).length)
            else
              match readValue dialect fuel (skipSpace r) with
              | .error e => .error e
              | .ok (v, r) =>
                match skipSpace r with
                | [] => .error (.malformed .comma 0)
                | d :: r =>
                  if d = '}' then .ok ([(String.ofList name, v)], r)
                  else if d = ',' then
                    match readMembers dialect fuel (skipSpace r) with
                    | .error e => .error e
                    | .ok (members, rest) => .ok ((String.ofList name, v) :: members, rest)
                  else .error (.malformed .comma (d :: r).length)

/-- The items of an array from a value on, to behind the closing bracket. -/
def readItems (dialect : Dialect) (fuel : Nat) (s : List Char) :
    Except ReadError (List (Json α) × List Char) :=
  match fuel with
  | 0 => .error (.malformed .value s.length)
  | fuel + 1 =>
    match readValue dialect fuel s with
    | .error e => .error e
    | .ok (v, r) =>
      match skipSpace r with
      | [] => .error (.malformed .comma 0)
      | d :: r =>
        if d = ']' then .ok ([v], r)
        else if d = ',' then
          match readItems dialect fuel (skipSpace r) with
          | .error e => .error e
          | .ok (items, rest) => .ok (v :: items, rest)
        else .error (.malformed .comma (d :: r).length)

end

/-- The value at the very start of a text, and what stands behind it. -/
def read (dialect : Dialect) (s : List Char) : Except ReadError (Json α × List Char) :=
  readValue dialect (2 * s.length + 2) s

/-- The value that a text is, with space around it. -/
def readAll (dialect : Dialect) (s : List Char) : Except ReadError (Json α) :=
  match read dialect (skipSpace s) with
  | .error e => .error e
  | .ok (v, r) =>
    match skipSpace r with
    | [] => .ok v
    | rest => .error (.malformed .extraData rest.length)

/-- The value that a document is. A document must not open with a byte order mark. -/
def readDocument (s : List Char) : Except ReadError (Json α) :=
  match s with
  | [] => readAll .lenient s
  | c :: _ => if c = '\ufeff' then .error (.malformed .byteOrderMark s.length) else readAll .lenient s

/-! ## Places in a text -/

/-- Where a mistake lies in its text, counting characters from zero. -/
def position (s : List Char) (left : Nat) : Nat := s.length - left

/-- A report on a text, with line, column and position of a mistake. -/
def ReadError.describe (s : List Char) : ReadError → String
  | .number fault => fault.message
  | .malformed mistake left =>
    let place := position s left
    let before := s.take place
    let line := before.count '\n' + 1
    let column := (before.reverse.takeWhile (· != '\n')).length + 1
    mistake.message ++ ": line " ++ toString line ++ " column " ++ toString column
      ++ " (char " ++ toString place ++ ")"

end Json
end SceneScript
