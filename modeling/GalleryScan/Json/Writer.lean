import GalleryScan.Json.Value

/-!
# Writing JSON

A value is written in one line, or over several lines with two blanks for each level. The second
form is what the cache file holds. It is produced in pieces, the way it goes to the file: a text
that has no form in bytes stops the writing at its piece, and the report of it counts from there.
-/

set_option autoImplicit false

namespace GalleryScan

/-- A code point inside the quotes of a written text. -/
def CodePoint.inJson (c : CodePoint) : Text :=
  if c = .scalar '\x22' then "\\\x22"
  else if c = .scalar '\\' then "\\\\"
  else if c = .scalar '\n' then "\\n"
  else if c = .scalar '\r' then "\\r"
  else if c = .scalar '\t' then "\\t"
  else if c = .scalar '\x08' then "\\b"
  else if c = .scalar '\x0c' then "\\f"
  else if c.val < 32 then "\\u" ++ Text.hex 4 c.val
  else [c]

namespace Json

def writeText (t : Text) : Text := "\x22" ++ t.flatMap CodePoint.inJson ++ "\x22"

/-- Has the value parts? -/
def isAtom : Json → Bool
  | array _ | object _ => false
  | _ => true

/-- A value that has no parts. -/
def writeAtom : Json → Text
  | null => "null"
  | bool true => "true"
  | bool false => "false"
  | int n => Text.ofInt n
  | real x => NumberFormat.file.write x
  | text t => writeText t
  | array _ | object _ => []

/-! ## In one line -/

mutual

def write : Json → Text
  | array xs => "[" ++ Text.join ", " (writeItems xs) ++ "]"
  | object ms => "\x7b" ++ Text.join ", " (writeMembers ms) ++ "\x7d"
  | x => x.writeAtom

def writeItems : List Json → List Text
  | [] => []
  | x :: xs => x.write :: writeItems xs

def writeMembers : List (Text × Json) → List Text
  | [] => []
  | (k, x) :: ms => (writeText k ++ ": " ++ x.write) :: writeMembers ms

end

/-! ## In several lines -/

/-- A line end and the blanks of a level. -/
def newLine (level : Nat) : Text := .scalar '\n' :: List.replicate (2 * level) (.scalar ' ')

mutual

/-- The pieces of a value whose first line is at a level. -/
def pieces (level : Nat) : Json → List Text
  | array [] => ["[]"]
  | array (x :: xs) =>
    itemPieces (level + 1) ("[" ++ newLine (level + 1)) (x :: xs) ++ [newLine level, "]"]
  | object [] => ["\x7b\x7d"]
  | object (m :: ms) =>
    [Text.ofString "\x7b", newLine (level + 1)] ++ memberPieces (level + 1) (m :: ms)
      ++ [newLine level, "\x7d"]
  | x => [x.writeAtom]

/-- The pieces of an array's items at a level. What stands before an item makes one piece with it
where it has no parts, and is a piece of its own where it has. -/
def itemPieces (level : Nat) (before : Text) : List Json → List Text
  | [] => []
  | x :: xs =>
    (if x.isAtom then [before ++ x.writeAtom] else before :: x.pieces level)
      ++ itemPieces level ("," ++ newLine level) xs

/-- The pieces of an object's members at a level. -/
def memberPieces (level : Nat) : List (Text × Json) → List Text
  | [] => []
  | [(k, x)] => writeText k :: ": " :: x.pieces level
  | (k, x) :: m :: ms =>
    writeText k :: ": " :: x.pieces level
      ++ ("," ++ newLine level) :: memberPieces level (m :: ms)

end

end Json

end GalleryScan
