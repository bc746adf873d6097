/-!
# Text as code points

Prompts, names and settings arrive as text in which half of a surrogate pair may stand alone: an
escape in a listing can spell one, and nothing repairs it. A `String` cannot hold such a text, so
text here is a list of code points, each a character or a lone surrogate. Being a list it brings
its own lemmas; every operation below is a short recursion over it.
-/

set_option autoImplicit false

namespace GalleryScan

/-- One unit of text: a character, or a surrogate that stands alone. -/
inductive CodePoint where
  | scalar (c : Char)
  | surrogate (offset : Fin 2048)
  deriving DecidableEq, Inhabited, Repr

namespace CodePoint

def firstSurrogate : Nat := 0xD800

def val : CodePoint → Nat
  | scalar c => c.toNat
  | surrogate n => firstSurrogate + n.val

/-- The unit with this number, and the replacement character where the number is no code. -/
def ofNat (n : Nat) : CodePoint :=
  if h : firstSurrogate ≤ n ∧ n < firstSurrogate + 2048 then
    .surrogate ⟨n - firstSurrogate, by omega⟩
  else if n.isValidChar then .scalar (Char.ofNat n)
  else .scalar '\uFFFD'

/-- A lone surrogate has no encoded form. -/
def isScalar : CodePoint → Bool
  | scalar _ => true
  | surrogate _ => false

/-- The character that takes the place of what cannot be read. -/
def replacement : CodePoint := .scalar '\uFFFD'

instance : Coe Char CodePoint := ⟨.scalar⟩

/-- Is the number between the ends of one of the ranges? -/
def between (ranges : List (Nat × Nat)) (n : Nat) : Bool :=
  ranges.any fun r => r.1 ≤ n && n ≤ r.2

def isAscii (c : CodePoint) : Bool := c.val < 128

/-- The value of a hexadecimal digit of either case. -/
def hexValue? (c : CodePoint) : Option Nat :=
  let n := c.val
  if 48 ≤ n ∧ n ≤ 57 then some (n - 48)
  else if 97 ≤ n ∧ n ≤ 102 then some (n - 87)
  else if 65 ≤ n ∧ n ≤ 70 then some (n - 55)
  else none

def isAsciiDigit (c : CodePoint) : Bool := 48 ≤ c.val && c.val ≤ 57

def isAsciiLetter (c : CodePoint) : Bool :=
  (65 ≤ c.val && c.val ≤ 90) || (97 ≤ c.val && c.val ≤ 122)

end CodePoint

abbrev Text := List CodePoint

namespace Text

/-- The text of a string, character by character. -/
def ofString (s : String) : Text := s.toList.map .scalar

instance : Coe String Text := ⟨ofString⟩

def ofNat (n : Nat) : Text := (Nat.toDigits 10 n).map .scalar

/-- A whole number in decimal, with a sign only where it is negative. -/
def ofInt : Int → Text
  | .ofNat n => ofNat n
  | .negSucc n => .scalar '-' :: ofNat (n + 1)

/-- A number in hexadecimal of at least `width` lower-case digits. -/
def hex (width n : Nat) : Text :=
  let ds := Nat.toDigits 16 n
  (List.replicate (width - ds.length) '0' ++ ds).map .scalar

/-- Every code point is a character, so that the text has an encoded form. -/
def isEncodable (t : Text) : Bool := t.all CodePoint.isScalar

def startsWith (p t : Text) : Bool := p.isPrefixOf t

def endsWith (p t : Text) : Bool := p.isSuffixOf t

def occursIn (p : Text) : Text → Bool
  | [] => p.isEmpty
  | c :: t => p.isPrefixOf (c :: t) || occursIn p t

/-- The pieces between the separators: one more than there are separators. -/
def splitOn (sep : CodePoint) : Text → List Text
  | [] => [[]]
  | c :: t =>
    if c = sep then [] :: splitOn sep t
    else match splitOn sep t with
      | [] => [[c]]
      | p :: ps => (c :: p) :: ps

/-- What stands before the first separator and, where there is one, what follows it. -/
def cut (sep : CodePoint) : Text → Text × Option Text
  | [] => ([], none)
  | c :: t =>
    if c = sep then ([], some t)
    else
      let (before, after) := cut sep t
      (c :: before, after)

/-- The pieces with the separator between each two. -/
def join (sep : Text) : List Text → Text
  | [] => []
  | [p] => p
  | p :: q :: ps => p ++ sep ++ join sep (q :: ps)

/-- Without the code points at both ends that pass the test. -/
def trim (out : CodePoint → Bool) (t : Text) : Text :=
  ((t.dropWhile out).reverse.dropWhile out).reverse

/-- Without the code points at the end that pass the test. -/
def trimEnd (out : CodePoint → Bool) (t : Text) : Text :=
  (t.reverse.dropWhile out).reverse

/-- The index of the first occurrence of a code point. -/
def indexOf? (c : CodePoint) (t : Text) : Option Nat := t.findIdx? (· = c)

/-- The text with its ASCII letters in lower case. -/
def lowered (t : Text) : Text :=
  t.map fun c => if 65 ≤ c.val ∧ c.val ≤ 90 then CodePoint.ofNat (c.val + 32) else c

/-- The text as a string, lone surrogates replaced. -/
def toString (t : Text) : String :=
  .ofList <| t.map fun
    | .scalar c => c
    | .surrogate _ => '\uFFFD'

/-! ## Small lemmas -/

theorem splitOn_ne_nil (sep : CodePoint) (t : Text) : splitOn sep t ≠ [] := by
  induction t with
  | nil => simp [splitOn]
  | cons c t ih =>
    by_cases h : c = sep
    · simp [splitOn, h]
    · cases hs : splitOn sep t with
      | nil => exact absurd hs ih
      | cons p ps => simp [splitOn, h, hs]

theorem join_splitOn (sep : CodePoint) (t : Text) : join [sep] (splitOn sep t) = t := by
  induction t with
  | nil => rfl
  | cons c t ih =>
    by_cases h : c = sep
    · cases hs : splitOn sep t with
      | nil => exact absurd hs (splitOn_ne_nil sep t)
      | cons p ps => rw [hs] at ih; simp [splitOn, h, hs, join, ih]
    · cases hs : splitOn sep t with
      | nil => exact absurd hs (splitOn_ne_nil sep t)
      | cons p ps =>
        rw [hs] at ih
        cases ps with
        | nil => simp_all [splitOn, join]
        | cons q qs => simp_all [splitOn, join]

end Text

end GalleryScan
