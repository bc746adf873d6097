import GalleryScan.Json.Value

/-!
# Keys

Records are told apart by their ids, which may be values of any kind. Numbers that are equal are
one key, however they are written, and the truth values count as one and zero. An id with parts is
no key.
-/

set_option autoImplicit false

namespace GalleryScan

/-- What an id is told apart by. -/
inductive Key where
  | absent
  | text (t : Text)
  | whole (n : Int)
  | real (x : Double)
  deriving DecidableEq

/-- An id that is no key, for it has parts. -/
structure KeyFault where
  /-- The word for the kind of value that the id is. -/
  kind : Text

def KeyFault.message (f : KeyFault) : Text := "unhashable type: '" ++ f.kind ++ "'"

def Key.of? (id : Json) : Except KeyFault Key :=
  match id with
  | .null => .ok .absent
  | .bool b => .ok (.whole (if b then 1 else 0))
  | .int n => .ok (.whole n)
  | .real x => .ok (match x.whole? with
    | some n => .whole n
    | none => .real x)
  | .text t => .ok (.text t)
  | .array _ | .object _ => .error ⟨id.kind⟩

end GalleryScan
