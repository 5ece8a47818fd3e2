import SceneScript.Proofs.Json.Every
import SceneScript.Proofs.Json.Number

/-!
# The texts of a value

A value can be written in many ways: with space between its parts, with characters as themselves or
escaped, with a power of ten or without. The grammar is that of standard JSON, and says of a text and
a value that **the one spells the other** (`Spells`). Nothing in it is about reading.

A text may give a name twice. It spells the members that it gives, in their order, and what they
come to is another matter: of the members with one name the last counts (`distinct`). A value whose
names are different is spelled as it is (`distinct_of_nodup`).
-/

set_option autoImplicit false

namespace SceneScript
namespace Json

/-! ## Space, strings -/

/-- Nothing but space. -/
def AllSpace (s : List Char) : Prop := ∀ c ∈ s, isSpace c = true

theorem allSpace_nil : AllSpace [] := fun _ h => nomatch h

/-- What stands between two quotes spells these characters. One beyond the first 65536 is escaped as
    two units, each of which has no meaning alone. -/
inductive SpellsString : List Char → List Char → Prop
  | nil : SpellsString [] []
  | plain {c : Char} {t s : List Char} : c ≠ '"' → c ≠ '\\' → 0x20 ≤ c.toNat →
    SpellsString t s → SpellsString (c :: t) (c :: s)
  | letter {e d : Char} {t s : List Char} : unescape? e = some d →
    SpellsString t s → SpellsString ('\\' :: e :: t) (d :: s)
  | unit {a b c d : Char} {n : Nat} {t s : List Char} : hexValues? a b c d = some n →
    isHighUnit n = false → isLowUnit n = false →
    SpellsString t s → SpellsString ('\\' :: 'u' :: a :: b :: c :: d :: t) (Char.ofNat n :: s)
  | pair {a b c d a' b' c' d' : Char} {high low : Nat} {t s : List Char} :
    hexValues? a b c d = some high → isHighUnit high = true →
    hexValues? a' b' c' d' = some low → isLowUnit low = true → SpellsString t s →
    SpellsString ('\\' :: 'u' :: a :: b :: c :: d :: '\\' :: 'u' :: a' :: b' :: c' :: d' :: t)
      (Char.ofNat (0x10000 + (high - 0xD800) * 0x400 + (low - 0xDC00)) :: s)

/-- A name in its quotes, with space around it. -/
inductive SpellsName : List Char → String → Prop
  | quoted {before t s behind : List Char} : AllSpace before → SpellsString t s → AllSpace behind →
    SpellsName (before ++ '"' :: (t ++ '"' :: behind)) (String.ofList s)

/-! ## Values -/

section Spells

variable {α : Type} [Scalar α]

mutual

/-- The text is one of the value, with space around it. -/
inductive Spells : List Char → Json α → Prop
  | spaced {before t behind : List Char} {v : Json α} : AllSpace before → SpellsBare t v →
    AllSpace behind → Spells (before ++ (t ++ behind)) v

/-- The text is one of the value, without space around it. -/
inductive SpellsBare : List Char → Json α → Prop
  | null : SpellsBare ['n', 'u', 'l', 'l'] .null
  | yes : SpellsBare ['t', 'r', 'u', 'e'] (.bool true)
  | no : SpellsBare ['f', 'a', 'l', 's', 'e'] (.bool false)
  | int {negative : Bool} {n : Int} : Text.signed negative n.natAbs = n →
    SpellsBare ((signedParts negative n).spelled []) (.int n)
  | real {p : NumberParts} {power : List Char} : p.WellFormed → IsReal p →
    NumberParts.IsPowerText p.power power →
    SpellsBare (p.spelled power) (.real (Scalar.ofDecimal p.decimal))
  | str {t s : List Char} : SpellsString t s →
    SpellsBare ('"' :: (t ++ ['"'])) (.str (String.ofList s))
  | noItems {space : List Char} : AllSpace space → SpellsBare ('[' :: (space ++ [']'])) (.arr [])
  | arr {t : List Char} {vs : List (Json α)} : SpellsItems t vs →
    SpellsBare ('[' :: (t ++ [']'])) (.arr vs)
  | noMembers {space : List Char} : AllSpace space →
    SpellsBare ('\x7b' :: (space ++ ['\x7d'])) (.obj [])
  | obj {t : List Char} {ms : List (String × Json α)} : SpellsMembers t ms →
    SpellsBare ('\x7b' :: (t ++ ['\x7d'])) (.obj ms)

/-- The text is one of items with commas between them. -/
inductive SpellsItems : List Char → List (Json α) → Prop
  | last {t : List Char} {v : Json α} : Spells t v → SpellsItems t [v]
  | more {t ts : List Char} {v : Json α} {vs : List (Json α)} : Spells t v → SpellsItems ts vs →
    SpellsItems (t ++ ',' :: ts) (v :: vs)

/-- The text is one of members with commas between them. -/
inductive SpellsMembers : List Char → List (String × Json α) → Prop
  | last {n t : List Char} {name : String} {v : Json α} : SpellsName n name → Spells t v →
    SpellsMembers (n ++ ':' :: t) [(name, v)]
  | more {n t ts : List Char} {name : String} {v : Json α} {ms : List (String × Json α)} :
    SpellsName n name → Spells t v → SpellsMembers ts ms →
    SpellsMembers (n ++ ':' :: (t ++ ',' :: ts)) ((name, v) :: ms)

end

theorem SpellsBare.spells {t : List Char} {v : Json α} (h : SpellsBare t v) : Spells t v := by
  have hspaced := Spells.spaced allSpace_nil h allSpace_nil
  rwa [List.nil_append, List.append_nil] at hspaced

/-! ## Repeated names -/

omit [Scalar α]

mutual

/-- The value, with the last of the members of one name for all of them, at every depth. -/
def distinct : Json α → Json α
  | .arr items => .arr (distinctItems items)
  | .obj members => .obj (Fields.ofPairs (distinctMembers members))
  | .null => .null
  | .bool b => .bool b
  | .int n => .int n
  | .real x => .real x
  | .str s => .str s

def distinctItems : List (Json α) → List (Json α)
  | [] => []
  | v :: rest => distinct v :: distinctItems rest

def distinctMembers : List (String × Json α) → List (String × Json α)
  | [] => []
  | (name, v) :: rest => (name, distinct v) :: distinctMembers rest

end

variable {leaf : Json α → Prop}

mutual

/-- **A value whose names are different is left as it is.** -/
theorem distinct_of_nodup (v : Json α) (h : v.Every leaf List.Nodup) : v.distinct = v := by
  cases v with
  | null => rfl
  | bool b => rfl
  | int n => rfl
  | real x => rfl
  | str s => rfl
  | arr items => exact congrArg arr (distinctItems_of_nodup items h)
  | obj members =>
    rw [distinct, distinctMembers_of_nodup members h.2, Fields.ofPairs_of_nodup h.1]

theorem distinctItems_of_nodup (vs : List (Json α)) (h : EveryItem leaf List.Nodup vs) :
    distinctItems vs = vs := by
  cases vs with
  | nil => rfl
  | cons v vs =>
    exact congrArg₂ List.cons (distinct_of_nodup v h.1) (distinctItems_of_nodup vs h.2)

theorem distinctMembers_of_nodup (ms : List (String × Json α))
    (h : EveryMember leaf List.Nodup ms) : distinctMembers ms = ms := by
  match ms, h with
  | [], _ => rfl
  | (name, v) :: ms, h =>
    rw [distinctMembers, distinct_of_nodup v h.1, distinctMembers_of_nodup ms h.2]

end

end Spells

end Json
end SceneScript
