import GalleryScan.Text.Utf8

/-!
# The parameters of a query

A query is written as names and values with an ampersand between each two pairs. A plus sign
stands for a blank, and a percent sign with two hexadecimal digits for a byte; bytes that form no
character become the replacement character, as nobody is there to be told.
-/

set_option autoImplicit false

namespace GalleryScan

namespace Text

/-- The bytes of an ASCII text with percent escapes. A percent sign that two hexadecimal digits do
not follow stands for itself. -/
def percentBytes : Text → Bytes
  | [] => []
  | [c] => [.ofNat c.val]
  | [c, d] => [.ofNat c.val, .ofNat d.val]
  | c :: d :: e :: t =>
    match c == .scalar '%', d.hexValue?, e.hexValue? with
    | true, some h, some l => .ofNat (16 * h + l) :: percentBytes t
    | _, _, _ => .ofNat c.val :: percentBytes (d :: e :: t)

/-- The text that percent escapes stand for. Escapes with ASCII around them are read together;
any other code point stands for itself and parts them. -/
def percentDecoded (t : Text) : Text :=
  match t with
  | [] => []
  | c :: t =>
    if c.isAscii then
      let run := c :: t.takeWhile CodePoint.isAscii
      have : (t.dropWhile CodePoint.isAscii).length ≤ t.length :=
        (List.dropWhile_suffix _).length_le
      (Text.percentBytes run).decodeLenient ++ percentDecoded (t.dropWhile CodePoint.isAscii)
    else c :: percentDecoded t
termination_by t.length

end Text

namespace Parameters

/-- The text that a name or a value stands for. -/
def decoded (t : Text) : Text :=
  Text.percentDecoded (t.map fun c => if c = .scalar '+' then .scalar ' ' else c)

/-- The pair of a name and a value that is not empty. -/
def pair? (t : Text) : Option (Text × Text) :=
  match t.cut (.scalar '=') with
  | (name, some (c :: value)) => some (decoded name, decoded (c :: value))
  | _ => none

/-- The parameters that a query gives a value, in order. -/
def ofQuery (query : Text) : List (Text × Text) := (query.splitOn (.scalar '&')).filterMap pair?

def last? (name : Text) (parameters : List (Text × Text)) : Option Text :=
  parameters.reverse.lookup name

end Parameters

end GalleryScan
