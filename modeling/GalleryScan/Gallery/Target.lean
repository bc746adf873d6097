import GalleryScan.Gallery.Name
import GalleryScan.Gallery.Record
import GalleryScan.Text.Digit
import GalleryScan.Text.Upper

/-!
# Where an image comes from and where it goes

In high quality the width in an image's address gives way to a wish for the image as it was
uploaded; in standard quality the address is taken as it is. The file is named after the record's
id, with one of three extensions.
-/

set_option autoImplicit false

namespace GalleryScan

/-- What a width in an address begins with. -/
def widthMark : Text := "width="

/-- The wish for the image as it was uploaded. -/
def fullSizeMark : Text := "original=true"

/-- The address with its first width, all its digits included, replaced by the wish for the
image in full size. -/
def unresized : Text → Text
  | [] => []
  | c :: t =>
    let rest := (c :: t).drop widthMark.length
    if widthMark.isPrefixOf (c :: t) && rest.head?.any CodePoint.isDecimal
    then fullSizeMark ++ rest.dropWhile CodePoint.isDecimal
    else c :: unresized t

def isHighQuality (quality : Text) : Bool := quality.upper = "HD"

def sourceUrl (quality url : Text) : Text := if isHighQuality quality then unresized url else url

def extensionOf (url : Text) : Text :=
  if Text.endsWith ".png" url then ".png"
  else if Text.endsWith ".webp" url then ".webp"
  else ".jpeg"

/-- An address to fetch and the name of the file for it. -/
structure Target where
  url : Text
  fileName : Text

def Record.target (quality : Text) (r : Record) : Target :=
  let url := sourceUrl quality r.url
  let ext := extensionOf url
  ⟨url, Text.fitName ("image" ++ ext) (r.id.plain ++ ext)⟩

end GalleryScan
