import GalleryScan.Number.Shortest
import GalleryScan.Text.CodePoint

/-!
# How a number is written

The digits come from `Double.shortest`; what is decided here is where they are written out in full
and how an exponent looks.
-/

set_option autoImplicit false

namespace GalleryScan

/-- The decisions of a number format. -/
structure NumberFormat where
  /-- The least exponent of a number that is written without one. -/
  least : Int
  /-- The exponent from which on numbers carry one. -/
  most : Int
  exponentWidth : Nat
  nan : Text
  infinity : Text

namespace NumberFormat

/-- Numbers from a ten-thousandth up to ten to the sixteenth are written out, with a point; others
carry a signed exponent of two digits or more. -/
def message : NumberFormat := ⟨-4, 16, 2, "nan", "inf"⟩

/-- The same numbers in files, where the words are those that a reader of files knows. -/
def file : NumberFormat := { message with nan := "NaN", infinity := "Infinity" }

/-- The digits of a positive number, with the power of ten of the first one. -/
def leading (mantissa : Nat) (exponent : Int) : List Char × Int :=
  let (d, ten) := Double.shortest mantissa exponent
  let ds := Nat.toDigits 10 d
  ((ds.reverse.dropWhile (· = '0')).reverse, ten + ds.length - 1)

/-- Digits written out, with a point. -/
def positional (ds : List Char) (power : Int) : List Char :=
  if power < 0 then "0.".toList ++ List.replicate (-power - 1).toNat '0' ++ ds
  else
    let n := power.toNat + 1
    let whole := ds.take n ++ List.replicate (n - ds.length) '0'
    whole ++ '.' :: (if ds.drop n = [] then ['0'] else ds.drop n)

/-- Digits with an exponent. -/
def scientific (width : Nat) (ds : List Char) (power : Int) : List Char :=
  let point := match ds with
    | [] => []
    | [d] => [d]
    | d :: ds => d :: '.' :: ds
  let e := Nat.toDigits 10 power.natAbs
  point ++ 'e' :: (if power < 0 then '-' else '+') :: (List.replicate (width - e.length) '0' ++ e)

/-- A finite number, its sign apart. -/
def digits (f : NumberFormat) (mantissa : Nat) (exponent : Int) : List Char :=
  if mantissa = 0 then "0.0".toList else
  let (ds, power) := leading mantissa exponent
  if f.least ≤ power ∧ power < f.most then positional ds power
  else scientific f.exponentWidth ds power

def sign (negative : Bool) : Text := if negative then "-" else ""

def write (f : NumberFormat) : Double → Text
  | .nan => f.nan
  | .infinity neg => sign neg ++ f.infinity
  | .finite neg m e _ => sign neg ++ (f.digits m e).map CodePoint.scalar

end NumberFormat

end GalleryScan
