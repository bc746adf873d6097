import GalleryScan.Text.CodePoint

/-!
# Digits

The decimal digits of every script stand in runs of ten, so the first of each run gives all their
values. Beside them Unicode has digits that are no decimal digits: raised, lowered and circled
ones. They count as digits, but no number is written with them.
-/

set_option autoImplicit false

namespace GalleryScan.CodePoint

/-- The zeros of the decimal digits of all scripts. -/
def zeros : List Nat :=
  [48, 1632, 1776, 1984, 2406, 2534, 2662, 2790, 2918, 3046, 3174, 3302,
   3430, 3558, 3664, 3792, 3872, 4160, 4240, 6112, 6160, 6470, 6608, 6784,
   6800, 6992, 7088, 7232, 7248, 42528, 43216, 43264, 43472, 43504, 43600, 44016,
   65296, 66720, 68912, 69734, 69872, 69942, 70096, 70384, 70736, 70864, 71248, 71360,
   71472, 71904, 72016, 72784, 73040, 73120, 92768, 92864, 93008, 120782, 120792, 120802,
   120812, 120822, 123200, 123632, 125264, 130032]

/-- The value of a decimal digit of any script. -/
def decimal? (c : CodePoint) : Option Nat :=
  (zeros.find? fun z => z ≤ c.val && c.val ≤ z + 9).map (c.val - ·)

def isDecimal (c : CodePoint) : Bool := zeros.any fun z => z ≤ c.val && c.val ≤ z + 9

/-- The digits in which no number is written: raised, lowered and circled ones among them. -/
def signDigitRanges : List (Nat × Nat) :=
  [(178, 179), (185, 185), (4969, 4977), (6618, 6618), (8304, 8304),
   (8308, 8313), (8320, 8329), (9312, 9320), (9332, 9340), (9352, 9360),
   (9450, 9450), (9461, 9469), (9471, 9471), (10102, 10110), (10112, 10120),
   (10122, 10130), (68160, 68163), (69216, 69224), (69714, 69722), (127232, 127242)]

/-- A digit, whether or not numbers are written with it. -/
def isDigit (c : CodePoint) : Bool := c.isDecimal || between signDigitRanges c.val

theorem isSome_decimal? (c : CodePoint) : c.decimal?.isSome = c.isDecimal := by
  rw [decimal?, isDecimal, Option.isSome_map, Bool.eq_iff_iff, List.find?_isSome, List.any_eq_true]

theorem decimal?_lt {c : CodePoint} {n : Nat} (h : c.decimal? = some n) : n < 10 := by
  obtain ⟨z, hz, rfl⟩ := Option.map_eq_some_iff.1 h
  have hz' := List.find?_some hz
  simp only [Bool.and_eq_true, decide_eq_true_eq] at hz'
  omega

end GalleryScan.CodePoint
