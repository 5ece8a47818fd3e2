import SceneScript.Json.Reader

/-!
# JSON in bytes

JSON that is sent comes in one of five encodings, and **it tells which one itself**: it
opens with characters of ASCII, so the zero bytes among the first four give the size of
a unit and the order of its bytes. Without a zero it is UTF-8, where a byte order mark in
front is passed over.
-/

set_option autoImplicit false

namespace SceneScript
namespace Json

/-- Whether the first byte of a unit counts most or least. -/
inductive ByteOrder where
  | big
  | little
deriving Repr, DecidableEq

inductive Encoding where
  | utf8
  | utf16 (order : ByteOrder)
  | utf32 (order : ByteOrder)
deriving Repr, DecidableEq

/-- The encoding that the bytes of a document show. -/
def Encoding.ofBytes : List UInt8 → Encoding
  | [a, b] => if a = 0 then .utf16 .big else if b = 0 then .utf16 .little else .utf8
  | a :: b :: c :: d :: _ =>
    if a = 0 then if b = 0 then .utf32 .big else .utf16 .big
    else if b = 0 then if c = 0 ∧ d = 0 then .utf32 .little else .utf16 .little
    else .utf8
  | _ => .utf8

/-- The number that bytes make. -/
def ByteOrder.number (order : ByteOrder) (bytes : List UInt8) : Nat :=
  let fromMost := match order with
    | .big => bytes
    | .little => bytes.reverse
  fromMost.foldl (fun n b => n * 256 + b.toNat) 0

/-- The units of two bytes each. -/
def units16? (order : ByteOrder) : List UInt8 → Option (List Nat)
  | [] => some []
  | [_] => none
  | a :: b :: rest => (units16? order rest).map (order.number [a, b] :: ·)

/-- The characters of 16-bit units behind the first half of a pair, if there is one. -/
def joinUnits (pending : Option Nat) : List Nat → List Char
  | [] => pendingText pending
  | n :: rest =>
    let (cs, pending) := joinUnit pending n
    cs ++ joinUnits pending rest

/-- The character of a 32-bit unit. Half a pair has its replacement. -/
def character? (n : Nat) : Option Char :=
  if isHighUnit n ∨ isLowUnit n then some Text.replacement
  else if n < 0x110000 then some (Char.ofNat n)
  else none

/-- The characters of units of four bytes each. -/
def characters32? (order : ByteOrder) : List UInt8 → Option (List Char)
  | [] => some []
  | a :: b :: c :: d :: rest => do
    let first ← character? (order.number [a, b, c, d])
    let others ← characters32? order rest
    return first :: others
  | _ => none

/-- The text of a document in bytes, if they have one in their encoding. -/
def decodeBytes? (bytes : List UInt8) : Option (List Char) :=
  match Encoding.ofBytes bytes with
  | .utf8 =>
    match Text.decodeUtf8 bytes with
    | .ok text => some (if text.head? = some '\ufeff' then text.tail else text)
    | .error _ => none
  | .utf16 order => (units16? order bytes).map (joinUnits none)
  | .utf32 order => characters32? order bytes

end Json
end SceneScript
