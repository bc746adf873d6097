import GalleryScan.Text.Blank
import GalleryScan.Text.Digit
import GalleryScan.Text.Quoted

/-!
# Whole numbers in text

Settings and headers write whole numbers with decimal digits of any script, a sign in front, single
low lines between digits, and blanks around it all. The information separators are blanks
elsewhere but not around a number. A number of more than 4300 digits is refused unread.
-/

set_option autoImplicit false

namespace GalleryScan

inductive WholeFault where
  | malformed
  | tooLong (digits : Nat)
  deriving DecidableEq

namespace Whole

def maxDigits : Nat := 4300

/-- The refusal of a number of too many digits. -/
def tooLongMessage (digits : Nat) : Text :=
  "Exceeds the limit (" ++ Text.ofNat maxDigits
    ++ " digits) for integer string conversion: value has " ++ Text.ofNat digits
    ++ " digits; use sys.set_int_max_str_digits() to increase the limit"

def unshowableMessage : Text :=
  "Exceeds the limit (" ++ Text.ofNat maxDigits
    ++ " digits) for integer string conversion; "
    ++ "use sys.set_int_max_str_digits() to increase the limit"

/-- How much of a text is shown that is no whole number, its quotes included. -/
def shownLength : Nat := 200

def malformedMessage (t : Text) : Text :=
  "invalid literal for int() with base 10: " ++ t.quoted.take shownLength

/-- A blank that may stand around a number. -/
def isPadding (c : CodePoint) : Bool := c.isBlank && !(28 ≤ c.val && c.val ≤ 31)

/-- The digits at the front, single low lines between them, and what follows. `none` where a low
line has no digit on one of its sides. -/
def digitRun : Text → Option (List Nat × Text)
  | [] => some ([], [])
  | c :: t =>
    match c.decimal? with
    | some d => (digitRun t).map fun (ds, r) => (d :: ds, r)
    | none =>
      if c = .scalar '_' then
        match t with
        | e :: t' => if e.isDecimal then digitRun (e :: t') else none
        | [] => none
      else some ([], c :: t)
termination_by t => t.length

def ofDigits (ds : List Nat) : Nat := ds.foldl (fun n d => 10 * n + d) 0

def magnitude (t : Text) : Except WholeFault Nat :=
  if t.head?.any CodePoint.isDecimal then
    match digitRun t with
    | none => .error .malformed
    | some (ds, rest) =>
      if maxDigits < ds.length then .error (.tooLong ds.length)
      else if rest = [] then .ok (ofDigits ds)
      else .error .malformed
  else .error .malformed

def read (t : Text) : Except WholeFault Int :=
  match t.trim isPadding with
  | [] => .error .malformed
  | c :: t =>
    if c = .scalar '-' then (magnitude t).map fun n => -(n : Int)
    else if c = .scalar '+' then (magnitude t).map fun n => (n : Int)
    else (magnitude (c :: t)).map fun n => (n : Int)

end Whole

def WholeFault.message (t : Text) : WholeFault → Text
  | malformed => Whole.malformedMessage t
  | tooLong digits => Whole.tooLongMessage digits

end GalleryScan
