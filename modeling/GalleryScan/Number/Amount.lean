import GalleryScan.Number.Notation
import GalleryScan.Number.Whole

/-!
# Amounts

A length of time is whole or has a point, and it is shown the way it was given.
-/

set_option autoImplicit false

namespace GalleryScan

/-- A number that is whole or has a point. -/
inductive Amount where
  | whole (n : Int)
  | real (x : Double)
  deriving DecidableEq

namespace Amount

def shown : Amount → Text
  | whole n => Text.ofInt n
  | real x => NumberFormat.message.write x

/-- May the amount be shown? A whole number of too many digits may not. -/
def isShowable : Amount → Bool
  | whole n => Double.decimalLength n.natAbs ≤ Whole.maxDigits
  | real _ => true

def tooLargeMessage : Text := "int too large to convert to float"

/-- The first power of two that no number with a point reaches. -/
def powerLimit : Nat := 1024

/-- The amount doubled as often as said; one with a point cannot be doubled 1024 times. -/
def doubled? (times : Nat) : Amount → Option Amount
  | whole n => some (whole (n * Nat.pow 2 times))
  | real x => if times < powerLimit then some (real (x.scale times)) else none

end Amount

end GalleryScan
