import GalleryScan.Text.CodePoint

/-!
# Paths

A path is a text with a slash between names. It is taken apart and put together here as a text,
without a look at what the disk holds.
-/

set_option autoImplicit false

namespace GalleryScan

namespace Path

def slash : CodePoint := .scalar '/'

/-- A path from the root of the disk. -/
def isAbsolute (p : Text) : Bool := p.head? = some slash

/-- A path followed by another: one from the root replaces what stands before it. -/
def join (p q : Text) : Text :=
  if isAbsolute q then q
  else if p = [] ∨ p.getLast? = some slash then p ++ q
  else p ++ slash :: q

/-- The names between the slashes. -/
def names (p : Text) : List Text := p.splitOn slash

/-- A path without the slashes at its end; slashes alone stay. -/
def withoutEnd (p : Text) : Text := if p.all (· = slash) then p else Text.trimEnd (· = slash) p

/-- What stands before the last name, without the slashes that part them. -/
def parent (p : Text) : Text :=
  withoutEnd (p.take (p.length - (p.reverse.takeWhile (· ≠ slash)).length))

/-- The last name, empty after a slash. -/
def lastName (p : Text) : Text := (p.reverse.takeWhile (· ≠ slash)).reverse

/-- The names of a path with the steps to a folder itself and to the one above taken out; of the
latter those at the front of a relative path stay. The names before are given in reverse. -/
def reduceNames (rooted : Bool) (before : List Text) : List Text → List Text
  | [] => before.reverse
  | n :: ns =>
    if n = "" ∨ n = "." then reduceNames rooted before ns
    else if n = ".." then
      match before with
      | [] => reduceNames rooted (if rooted then [] else [n]) ns
      | b :: bs => reduceNames rooted (if b = ".." then n :: b :: bs else bs) ns
    else reduceNames rooted (n :: before) ns

/-- The slashes that a path begins with: two mean something else than one, more do not. -/
def rootOf (p : Text) : Text :=
  match (p.takeWhile (· = slash)).length with
  | 0 => []
  | 2 => [slash, slash]
  | _ => [slash]

/-- The shortest spelling of a path. -/
def normal (p : Text) : Text :=
  let root := rootOf p
  let spelled := root ++ Text.join [slash] (reduceNames (root ≠ []) [] (names p))
  if spelled = [] then "." else spelled

/-- The path from the root of the disk, for one that is relative to the folder `here`. -/
def absolute (here p : Text) : Text := normal (if isAbsolute p then p else join here p)

/-- A file's name without its extension. Points at the front begin no extension. -/
def stem (name : Text) : Text :=
  let tail := name.reverse.takeWhile (· ≠ .scalar '.')
  let head := name.take (name.length - tail.length - 1)
  if tail.length < name.length ∧ head.any (· ≠ .scalar '.') then head else name

end Path

end GalleryScan
