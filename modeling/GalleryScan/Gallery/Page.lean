import GalleryScan.Gallery.Record
import GalleryScan.Web.Address
import GalleryScan.Web.Parameters

/-!
# Pages of a listing

A page holds the usable items of one answer and the mark at which the listing goes on. The mark
stands in the answer by itself or as a parameter of the address of the next page. Items that are no
images are reported and left out.
-/

set_option autoImplicit false

namespace GalleryScan

/-- One page of a listing; without a cursor it is the last one. -/
structure Page where
  items : List Record
  cursor : Option Text

inductive PageFault where
  | unexpected (answer : Json)
  | address (fault : AddressFault)

def PageFault.message : PageFault → Text
  | unexpected answer => "Unexpected listing response: " ++ answer.plain.take 200
  | address fault => fault.message

/-- The mark in the data about a page. -/
def Page.cursorOf (metadata : Json) : Except AddressFault (Option Text) :=
  let cursor := metadata.get "nextCursor"
  let next := metadata.get "nextPage"
  if cursor.isTruthy then .ok (some cursor.plain)
  else if next.isTruthy then do
    let query ← Address.query next.plain
    return (Parameters.last? "cursor" (Parameters.ofQuery query)).filter (· ≠ [])
  else .ok none

/-- The items of a page and the reports about what had to be left out. -/
def Page.itemsOf (items : List Json) : List Record × List Text :=
  (items.filterMap fun i => (Record.ofJson? i).toOption,
   items.filterMap fun i => match Record.ofJson? i with
    | .ok _ => none
    | .error e => some ("[~] Skipping malformed image item: " ++ e.message))

/-- The page of an answer, with the reports about items that were left out. -/
def Page.ofJson? (answer : Json) : List Text × Except PageFault Page :=
  match answer.get "items" with
  | .array items =>
    let (records, reports) := itemsOf items
    match cursorOf (answer.get "metadata") with
    | .ok cursor => (reports, .ok ⟨records, cursor⟩)
    | .error fault => (reports, .error (.address fault))
  | _ => ([], .error (.unexpected answer))

end GalleryScan
