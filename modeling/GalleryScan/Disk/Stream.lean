import GalleryScan.Disk.Tree

/-!
# Files that are being written

What is written to an open file waits until a block is full and goes to the disk then, or when the
file is closed. Each piece goes behind the ones before it, even where the file has been emptied
meanwhile; and when the file's name has been taken away, what goes there is seen by nobody.
-/

set_option autoImplicit false

namespace GalleryScan

/-- A file that is open for writing. -/
structure Stream where
  /-- How many bytes have gone to the disk. -/
  position : Nat
  /-- What waits to go there. -/
  pending : Bytes
  /-- Does the name under which the file was opened still lead to it? -/
  named : Bool

namespace Stream

/-- The most bytes that wait. -/
def blockSize : Nat := 4096

def opened : Stream := ⟨0, [], true⟩

/-- Brings a piece to the disk, behind what has gone there before. -/
def send (s : Stream) (d : Disk) (path : Text) (piece : Bytes) : Disk × Stream :=
  (if s.named then d.overlay path s.position piece else d,
    { s with position := s.position + piece.length })

/-- Brings to the disk what waits. -/
def flush (s : Stream) (d : Disk) (path : Text) : Disk × Stream :=
  let (d, s) := s.send d path s.pending
  (d, { s with pending := [] })

/-- Writes a piece. One that fits beside what waits is made to wait; otherwise what waits goes to
the disk first, and a piece that is longer than a block follows at once. -/
def write (s : Stream) (d : Disk) (path : Text) (piece : Bytes) : Disk × Stream :=
  if s.pending.length + piece.length ≤ blockSize then (d, { s with pending := s.pending ++ piece })
  else
    let (d, s) := s.flush d path
    if blockSize < piece.length then s.send d path piece
    else (d, { s with pending := piece })

def close (s : Stream) (d : Disk) (path : Text) : Disk := (s.flush d path).1

/-- The file after its name is taken away. -/
def unnamed (s : Stream) : Stream := { s with named := false }

end Stream

end GalleryScan
