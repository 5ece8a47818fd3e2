import SceneScript.Decimal.Nearest

/-!
# The fewest digits that read back

A double is written with the fewest decimal digits that still read back as the
same double; of two such numerals the nearer to its value, and the even one on a
tie. **Reading back is tested with the very function that reads**, so whatever
is written is read as what it was, by construction.

For each count of digits, one after the other, the two neighbours of the value
on the grid of that many digits are tried. Seventeen digits always suffice; the
exact value of the double stands behind them all the same, so that the search
has an answer whatever the count.
-/

set_option autoImplicit false

namespace SceneScript
namespace Binary64

/-- The numeral without the zeros at its end; `fuel` bounds their number. -/
def dropZeros : Nat → Nat × Int → Nat × Int
  | 0, d => d
  | fuel + 1, (digits, exponent) =>
    if digits ≠ 0 ∧ digits % 10 = 0 then dropZeros fuel (digits / 10, exponent + 1)
    else (digits, exponent)

/-- The value `n / d` is below `10 ^ k`. -/
def belowPower (n d : Nat) (k : Int) : Bool :=
  decide (n * Nat.pow 10 (-k).toNat < d * Nat.pow 10 k.toNat)

/-- The number of places before the point, negative for a small value: the least
    power of ten above the value `n / d`. The logarithm to the base two leaves
    three candidates. -/
def wholePlaces (n d : Nat) : Int :=
  let k := ((n.log2 : Int) - d.log2) * 30103 / 100000
  if belowPower n d k then k else if belowPower n d (k + 1) then k + 1 else k + 2

/-- The neighbours of `n / d` on the grid of the multiples of `10 ^ q`, the
    nearer first and the even one first on a tie. -/
def neighbours (n d : Nat) (q : Int) : List (Nat × Int) :=
  let num := n * Nat.pow 10 (-q).toNat
  let den := d * Nat.pow 10 q.toNat
  let low := num / den
  let lowFirst :=
    decide (2 * num < (2 * low + 1) * den) || (2 * num == (2 * low + 1) * den && low % 2 == 0)
  let below := dropZeros 20 (low, q)
  let above := dropZeros 20 (low + 1, q)
  if lowFirst then [below, above] else [above, below]

/-- The numeral reads back as the double with these bits. -/
def readsBack (bits : Nat) (d : Nat × Int) : Bool := ofScientific d.1 d.2 == bits

/-- The exact value `m * 2 ^ e` as a numeral. -/
def exact (m : Nat) (e : Int) : Nat × Int :=
  if 0 ≤ e then (m * Nat.pow 2 e.toNat, 0) else (m * Nat.pow 5 (-e).toNat, e)

/-- The numeral that a magnitude is written as. -/
def shortest (bits : Nat) : Nat × Int :=
  let (m, e) := decode bits
  if m = 0 then (0, 0)
  else
    let n := m * Nat.pow 2 e.toNat
    let d := Nat.pow 2 (-e).toNat
    let places := wholePlaces n d
    let found := (List.range 17).findSome? fun i =>
      (neighbours n d (places - (i + 1 : Nat))).find? (readsBack bits)
    found.getD (exact m e)

end Binary64

/-- The numeral that a finite double is written as. -/
def Decimal.ofFloat (x : Float) : Decimal :=
  let d := Binary64.shortest (Binary64.magnitude x)
  ⟨Binary64.isNegative x, d.1, d.2⟩

end SceneScript
