/-!
# Reading UTF-8

Bytes become characters, or a report on the first bytes that are none; or all of them are
read, with a replacement for those. A character is one
to four bytes: a lead byte says how many, and the others lie in the continuation range,
the second one in a part of it that keeps every character to its shortest form and keeps
out the halves of pairs.
-/

set_option autoImplicit false

namespace SceneScript
namespace Text

/-- Why bytes are no character. -/
inductive Utf8Fault where
  | startByte
  | continuationByte
  | endOfData
deriving Repr, DecidableEq

def Utf8Fault.message : Utf8Fault → String
  | .startByte => "invalid start byte"
  | .continuationByte => "invalid continuation byte"
  | .endOfData => "unexpected end of data"

/-- The first bytes that are no character: where they are, how many, and which comes
    first. -/
structure Utf8Error where
  position : Nat
  count : Nat
  first : Nat
  fault : Utf8Fault
deriving Repr, DecidableEq

def Utf8Error.message (e : Utf8Error) : String :=
  let place :=
    if e.count = 1 then
      "byte 0x" ++ String.ofList [Nat.digitChar (e.first / 16), Nat.digitChar (e.first % 16)]
        ++ " in position " ++ toString e.position
    else
      "bytes in position " ++ toString e.position ++ "-" ++ toString (e.position + e.count - 1)
  "'utf-8' codec can't decode " ++ place ++ ": " ++ e.fault.message

/-- A continuation byte. -/
def isContinuation (b : UInt8) : Bool := 0x80 ≤ b && b ≤ 0xBF

/-- The second byte fits the lead byte. -/
def fitsLead (lead second : UInt8) : Bool :=
  isContinuation second
    && (lead != 0xE0 || 0xA0 ≤ second) && (lead != 0xED || second < 0xA0)
    && (lead != 0xF0 || 0x90 ≤ second) && (lead != 0xF4 || second < 0x90)

/-- How many bytes follow a lead byte that is not a character itself. -/
def followers? (lead : UInt8) : Option Nat :=
  if 0xC2 ≤ lead && lead ≤ 0xDF then some 1
  else if 0xE0 ≤ lead && lead ≤ 0xEF then some 2
  else if 0xF0 ≤ lead && lead ≤ 0xF4 then some 3
  else none

/-- Which of the bytes behind a lead byte belong to it, at most `n` of them. -/
def tailBytes (n : Nat) (lead : UInt8) (rest : List UInt8) : List UInt8 :=
  match rest.take n with
  | [] => []
  | second :: others =>
    if fitsLead lead second then second :: others.takeWhile isContinuation else []

/-- The character that a lead byte and its followers are. -/
def assemble (lead : UInt8) (followers : List UInt8) : Char :=
  let bits := if followers.length = 1 then lead.toNat % 32
    else if followers.length = 2 then lead.toNat % 16 else lead.toNat % 8
  Char.ofNat (followers.foldl (fun n b => n * 64 + b.toNat % 64) bits)

/-- The characters of bytes, of which `skip` belong to a character already read.
    `position` counts the bytes before. -/
def decodeFrom (position skip : Nat) : List UInt8 → Except Utf8Error (List Char)
  | [] => .ok []
  | b :: rest =>
    if 0 < skip then decodeFrom (position + 1) (skip - 1) rest
    else if b < 0x80 then (decodeFrom (position + 1) 0 rest).map (Char.ofNat b.toNat :: ·)
    else
      match followers? b with
      | none => .error ⟨position, 1, b.toNat, .startByte⟩
      | some n =>
        let tail := tailBytes n b rest
        if tail.length = n then
          (decodeFrom (position + 1) n rest).map (assemble b tail :: ·)
        else
          .error ⟨position, tail.length + 1, b.toNat,
            if tail.length = rest.length then .endOfData else .continuationByte⟩

/-- The characters of bytes. -/
def decodeUtf8 (bytes : List UInt8) : Except Utf8Error (List Char) := decodeFrom 0 0 bytes

/-- What stands in for bytes that are no character, and for half a pair of units. -/
def replacement : Char := '\ufffd'

/-- The characters of bytes, with the replacement for bytes that are none. Of the bytes
    `skip` belong to what was read already. -/
def replacingFrom (skip : Nat) : List UInt8 → List Char
  | [] => []
  | b :: rest =>
    if 0 < skip then replacingFrom (skip - 1) rest
    else if b < 0x80 then Char.ofNat b.toNat :: replacingFrom 0 rest
    else
      match followers? b with
      | none => replacement :: replacingFrom 0 rest
      | some n =>
        let tail := tailBytes n b rest
        (if tail.length = n then assemble b tail else replacement) :: replacingFrom tail.length rest

/-- The characters of bytes, with the replacement for bytes that are none. -/
def replacingUtf8 (bytes : List UInt8) : List Char := replacingFrom 0 bytes

/-- The text with every line end a line feed, whether it was written as a carriage
    return, a line feed or both. -/
def unifyLineEnds : List Char → List Char
  | [] => []
  | c :: s =>
    if c = '\r' then
      if s.head? = some '\n' then unifyLineEnds s else '\n' :: unifyLineEnds s
    else c :: unifyLineEnds s

end Text
end SceneScript
