/-!
# Numbers of 53 bits

The numbers that listings and settings write with a point or an exponent: a sign, a whole number of
at most 53 bits and a power of two. They are values here, not machine words, so that they have an
equality and every operation is exact arithmetic on whole numbers followed by one rounding.
-/

set_option autoImplicit false

namespace GalleryScan

/-- The bounds of a finite number, under which each number has one form: 53 bits, or fewer at the
least exponent. -/
def Double.Canonical (mantissa : Nat) (exponent : Int) : Prop :=
  mantissa < Nat.pow 2 53 ∧ -1074 ≤ exponent ∧ exponent ≤ 971
    ∧ (Nat.pow 2 52 ≤ mantissa ∨ exponent = -1074)

instance (m : Nat) (e : Int) : Decidable (Double.Canonical m e) := by
  unfold Double.Canonical; infer_instance

/-- A number of 53 bits; all numbers that are none are the same. -/
inductive Double where
  | nan
  | infinity (negative : Bool)
  | finite (negative : Bool) (mantissa : Nat) (exponent : Int)
      (canonical : Double.Canonical mantissa exponent)
  deriving DecidableEq

namespace Double

def zero (negative : Bool) : Double := .finite negative 0 (-1074) (by decide)

/-- The number with this mantissa and exponent; beyond the greatest number it is infinite. -/
def make (negative : Bool) (mantissa : Nat) (exponent : Int) : Double :=
  if h : Canonical mantissa exponent then .finite negative mantissa exponent h
  else .infinity negative

/-- A quotient rounded to the nearest whole number, a half to the even one. -/
def roundQuotient (num den : Nat) : Nat :=
  let q := num / den
  let r := num % den
  if 2 * r < den then q
  else if 2 * r = den ∧ q % 2 = 0 then q
  else q + 1

/-- The fraction `num / den` in units of `2 ^ exponent`, as a fraction. -/
def inUnits (num den : Nat) (exponent : Int) : Nat × Nat :=
  match exponent with
  | .ofNat e => (num, den * Nat.pow 2 e)
  | .negSucc e => (num * Nat.pow 2 (e + 1), den)

/-- The exponent at which the whole part of `num / den` has 53 bits, or the least exponent. -/
def exponentFor (num den : Nat) : Int :=
  let low := max ((num.log2 : Int) - den.log2 - 53) (-1074)
  let (n, d) := inUnits num den low
  if n / d < Nat.pow 2 53 then low else low + 1

/-- The number nearest to `num / den`, a tie going to the even mantissa. -/
def nearest (negative : Bool) (num den : Nat) : Double :=
  if num = 0 then zero negative else
  let e := exponentFor num den
  let (n, d) := inUnits num den e
  let m := roundQuotient n d
  if m = Nat.pow 2 53 then make negative (Nat.pow 2 52) (e + 1) else make negative m e

/-- How many decimal digits a whole number has; zero has none. -/
def decimalLength (n : Nat) : Nat := if n = 0 then 0 else (Nat.toDigits 10 n).length

/-- The number nearest to `digits * 10 ^ exponent`. Far beyond the greatest number and far below
the least one the powers need not be computed. -/
def ofDecimal (negative : Bool) (digits : Nat) (exponent : Int) : Double :=
  let magnitude := decimalLength digits + exponent
  if digits = 0 ∨ magnitude < -400 then zero negative
  else if 400 < magnitude then .infinity negative
  else match exponent with
    | .ofNat e => nearest negative (digits * Nat.pow 10 e) 1
    | .negSucc e => nearest negative digits (Nat.pow 10 (e + 1))

/-- The number nearest to a whole number. -/
def ofInt (n : Int) : Double := nearest (n < 0) n.natAbs 1

/-- Is a whole number so large that the number nearest to it is infinite? -/
def isTooLarge (n : Int) : Bool :=
  match ofInt n with
  | .infinity _ => true
  | _ => false

/-- A finite number as a fraction of whole numbers, its sign apart. -/
def fraction (mantissa : Nat) (exponent : Int) : Nat × Nat :=
  match exponent with
  | .ofNat e => (mantissa * Nat.pow 2 e, 1)
  | .negSucc e => (mantissa, Nat.pow 2 (e + 1))

/-- The whole part, toward zero; a number that is none and an infinite one have none. -/
def truncate? : Double → Option Int
  | finite neg m e _ =>
    let (n, d) := fraction m e
    let q : Int := n / d
    some (if neg then -q else q)
  | _ => none

/-- The least whole number that is not below this number. Minus infinity counts as zero here; a
number that is none and plus infinity have no whole number above them. -/
def ceiling? : Double → Option Int
  | finite neg m e _ =>
    let (n, d) := fraction m e
    some (if neg then -((n / d : Nat) : Int) else ((n + d - 1) / d : Nat))
  | infinity negative => if negative then some 0 else none
  | nan => none

/-- The whole number that this number is, if it is one. -/
def whole? : Double → Option Int
  | finite neg m e _ =>
    let (n, d) := fraction m e
    if n % d = 0 then some (if neg then -((n / d : Nat) : Int) else ((n / d : Nat) : Int)) else none
  | _ => none

/-- Zero of either sign. -/
def isZero : Double → Bool
  | finite _ m _ _ => m = 0
  | _ => false

/-- Twice itself as often as said. Only leaving the range rounds. -/
def scale (x : Double) (times : Nat) : Double :=
  match x with
  | finite neg m e _ =>
    let (n, d) := fraction m e
    nearest neg (n * Nat.pow 2 times) d
  | x => x

end Double

end GalleryScan
