import GalleryScan.Text.Blank

/-!
# Names of files and folders

A name that comes from elsewhere is made fit to stand alone in a path: it holds no separator and
none of the signs that some systems refuse, and it names neither a folder itself nor the one above.
-/

set_option autoImplicit false

namespace GalleryScan

/-- A sign that a name may not hold. -/
def CodePoint.isUnfit (c : CodePoint) : Bool :=
  c.val < 32 || (Text.ofString "\\/*?:\x22<>|").contains c

/-- The text made fit for a name: a low line for each unfit sign, no blanks at the ends, and
`default` where nothing is left that names an entry of its own. -/
def Text.fitName (default name : Text) : Text :=
  let fit := Text.strip (name.map fun c => if c.isUnfit then .scalar '_' else c)
  if fit = "" ∨ fit = "." ∨ fit = ".." then default else fit

def folderDefault : Text := "user"

end GalleryScan
