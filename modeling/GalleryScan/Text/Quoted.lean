import GalleryScan.Text.Printable

/-!
# Text between quotes

Messages show a text inside a value between single quotes, or between double quotes where it holds
a single quote and no double one. What does not print is spelled by its number.
-/

set_option autoImplicit false

namespace GalleryScan

namespace CodePoint

def spelled (c : CodePoint) : Text :=
  if c.val < 0x100 then "\\x" ++ Text.hex 2 c.val
  else if c.val < 0x10000 then "\\u" ++ Text.hex 4 c.val
  else "\\U" ++ Text.hex 8 c.val

/-- A code point as it stands between two quotes of the kind given. -/
def inQuotes (quote c : CodePoint) : Text :=
  if c = quote ∨ c = .scalar '\\' then [.scalar '\\', c]
  else if c = .scalar '\n' then "\\n"
  else if c = .scalar '\r' then "\\r"
  else if c = .scalar '\t' then "\\t"
  else if c.isPrintable then [c]
  else c.spelled

end CodePoint

namespace Text

/-- The kind of quote that a text stands between. -/
def quoteFor (t : Text) : CodePoint :=
  if t.contains (.scalar '\x27') && !t.contains (.scalar '\x22') then .scalar '\x22'
  else .scalar '\x27'

def quoted (t : Text) : Text :=
  t.quoteFor :: t.flatMap (CodePoint.inQuotes t.quoteFor) ++ [t.quoteFor]

end Text

end GalleryScan
