import GalleryScan.Json.Value

/-!
# Requests and how they fail

A request goes to one address, with parameters where a listing is asked for. It may fail before any
answer arrives, in one of several ways; most of them are reported, two are nobody's to handle.
-/

set_option autoImplicit false

namespace GalleryScan

/-- A request to a server. A listing is asked for with parameters, an image without. The headers
are those beside the one that names the program. -/
structure Request where
  url : Text
  parameters : Option (List (Text × Json))
  headers : List (Text × Text)

/-- The header that names a program, where no other name is known. -/
def genericAgent : Text := "Mozilla/5.0"

inductive TransportKind where
  | connection
  | client
  | payload
  | invalidUrl
  | timeout
  | value
  /-- The system refuses, which no one who fetches a listing expects. -/
  | system
  | interrupt
  deriving DecidableEq

/-- A request that failed, and what was said about it. -/
structure TransportFault where
  kind : TransportKind
  message : Text
  deriving DecidableEq

/-- The value of a header, whose name is the same in every case. -/
def header? (name : Text) (headers : List (Text × Text)) : Option Text :=
  (headers.find? fun (n, _) => n.lowered = name.lowered).map (·.2)

end GalleryScan
