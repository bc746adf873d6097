import GalleryScan.Text.Caseless
import GalleryScan.Text.Digit
import GalleryScan.Text.Word

/-!
# Finding a term in a prompt

A term occurs where its letters stand, in any case, between two word boundaries; digits may stand
directly in front of it (`1boy`), and a plural pattern also takes one `s` after it (`cats`).
The search reports the leftmost place, there the longest run of digits that leads to an
occurrence, and there the plural where it can.
-/

set_option autoImplicit false

namespace GalleryScan

/-- What is looked for: a term, and whether it may carry a plural `s`. -/
structure Pattern where
  term : Text
  plural : Bool
  deriving DecidableEq

namespace Pattern

/-- A term to look for in its singular and its plural. -/
def including (term : Text) : Pattern := ⟨term, true⟩

def excluding (term : Text) : Pattern := ⟨term, false⟩

/-- What follows the letters of a term, and the code point before that. -/
def passLetters (before : Option CodePoint) : Text → Text → Option (Option CodePoint × Text)
  | [], t => some (before, t)
  | _ :: _, [] => none
  | c :: cs, d :: t => if c.sameLetter d then passLetters (some d) cs t else none

/-- How many code points end an occurrence whose letters are read: one for a plural, else none,
and a word must end there. -/
def ending? (plural : Bool) (before : Option CodePoint) (t : Text) : Option Nat :=
  let plain := if CodePoint.isBoundary before t.head? then some 0 else none
  match plural, t with
  | true, c :: t =>
    if CodePoint.sameLetter (.scalar 's') c && CodePoint.isBoundary (some c) t.head? then some 1
    else plain
  | _, _ => plain

/-- The length of an occurrence without leading digits. -/
def bare? (p : Pattern) (before : Option CodePoint) (t : Text) : Option Nat := do
  let (last, rest) ← passLetters before p.term t
  let n ← ending? p.plural last rest
  return p.term.length + n

/-- The length of an occurrence that begins here, with as many leading digits as can be. -/
def length? (p : Pattern) (before : Option CodePoint) : Text → Option Nat
  | [] => p.bare? before []
  | c :: t =>
    -- A term may begin with a digit itself, so fewer leading digits are tried where more fail.
    let withDigit := if c.isDecimal then (p.length? (some c) t).map (· + 1) else none
    match withDigit with
    | some n => some n
    | none => p.bare? before (c :: t)

/-- The first occurrence in the rest of a prompt, counted from the start of that rest. -/
def findFrom (p : Pattern) (before : Option CodePoint) (t : Text) : Option (Nat × Nat) :=
  let here := if CodePoint.isBoundary before t.head? then p.length? before t else none
  match here, t with
  | some n, _ => some (0, n)
  | none, [] => none
  | none, c :: t => (p.findFrom (some c) t).map fun (i, l) => (i + 1, l + 1)

def find (p : Pattern) (t : Text) : Option (Nat × Nat) := p.findFrom none t

def occurs (p : Pattern) (t : Text) : Bool := (p.find t).isSome

end Pattern

end GalleryScan
