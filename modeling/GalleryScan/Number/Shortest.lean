import GalleryScan.Number.Double

/-!
# The fewest digits that read back

A number lies in an interval of reals that all round to it; the ends belong to it where its
mantissa is even. For one digit, two digits and so on the two neighbours of the number on the grid
of that many decimal digits are tried: the first grid with a neighbour in the interval gives the
digits. Of two such neighbours the nearer is taken, and of two equally near ones the even one.
-/

set_option autoImplicit false

namespace GalleryScan.Double

/-- The exponent `p` with `10 ^ p ≤ num / den < 10 ^ (p + 1)`. -/
def decimalExponent (num den : Nat) : Int :=
  if den ≤ num then (decimalLength (num / den) : Int) - 1
  else -(decimalLength ((den + num - 1) / num - 1) : Int)

/-- The interval of a number in quarters of its last place: the lower end, the number, the upper
end. Below a power of two the next number is twice as near. -/
def quarters (mantissa : Nat) (exponent : Int) : Nat × Nat × Nat :=
  let low := if mantissa = Nat.pow 2 52 ∧ exponent ≠ -1074 then 1 else 2
  (4 * mantissa - low, 4 * mantissa, 4 * mantissa + 2)

/-- Whole factors `a` and `b` such that `x * 2 ^ two` and `y * 10 ^ ten` compare as `x * a` and
`y * b` do. -/
def factors (two ten : Int) : Nat × Nat :=
  (Nat.pow 2 two.toNat * Nat.pow 10 (-ten).toNat, Nat.pow 10 ten.toNat * Nat.pow 2 (-two).toNat)

/-- The digits on the grid of `10 ^ ten`, if a neighbour there reads back. -/
def gridDigits? (mantissa : Nat) (exponent : Int) (ten : Int) : Option Nat :=
  let (low, mid, high) := quarters mantissa exponent
  let (a, b) := factors (exponent - 2) ten
  let below := mid * a / b
  let closed := mantissa % 2 = 0
  let fits (y : Nat) : Bool :=
    if closed then low * a ≤ y * b && y * b ≤ high * a else low * a < y * b && y * b < high * a
  let above := below + 1
  let downward := mid * a - below * b
  let upward := above * b - mid * a
  match fits below, fits above with
  | true, true =>
    if downward < upward then some below
    else if upward < downward then some above
    else if below % 2 = 0 then some below else some above
  | true, false => some below
  | false, true => some above
  | false, false => none

/-- The first hit on the grids of `count` digits and more. -/
def firstHit (mantissa : Nat) (exponent top : Int) : Nat → Nat → Nat × Int
  | 0, count => (mantissa, top - count)
  | fuel + 1, count =>
    let ten := top - count
    match gridDigits? mantissa exponent ten with
    | some d => (d, ten)
    | none => firstHit mantissa exponent top fuel (count + 1)

/-- The digits and the power of ten of the shortest decimal that reads back as a positive number.
Seventeen digits always do. -/
def shortest (mantissa : Nat) (exponent : Int) : Nat × Int :=
  let (n, d) := fraction mantissa exponent
  firstHit mantissa exponent (decimalExponent n d) 17 0

end GalleryScan.Double
