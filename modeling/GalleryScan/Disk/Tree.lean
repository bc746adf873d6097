import GalleryScan.Disk.Fault
import GalleryScan.Disk.Name
import GalleryScan.Disk.Path

/-!
# The disk

A disk holds files and folders, each under the names that lead to it from the root, and has a
working folder, which exists and from which relative paths start. A path is followed one name at a
time; every step but the last has to end at a folder.
-/

set_option autoImplicit false

namespace GalleryScan

/-- What a name on a disk stands for. -/
inductive Entry where
  | file (content : Bytes)
  | folder
  deriving DecidableEq

/-- The names that lead from the root to an entry. -/
abbrev Route := List Text

/-- Files and folders, and the folder from which relative paths start. -/
structure Disk where
  here : Route
  entries : List (Route × Entry)

namespace Disk

/-- The entry at the end of a route. The working folder and those around it are always there. -/
def entry? (d : Disk) (r : Route) : Option Entry :=
  if r.isPrefixOf d.here then some .folder else d.entries.lookup r

/-- The disk with an entry put at a route, in the place of the one that was there. -/
def put (d : Disk) (r : Route) (e : Entry) : Disk :=
  { d with entries :=
      if d.entries.any (·.1 = r) then d.entries.map fun x => if x.1 = r then (r, e) else x
      else d.entries ++ [(r, e)] }

def erase (d : Disk) (r : Route) : Disk :=
  { d with entries := d.entries.filter (·.1 ≠ r) }

/-- The names of the entries in the folder at a route. -/
def namesIn (d : Disk) (r : Route) : List Text :=
  d.entries.filterMap fun (s, _) => if s.dropLast = r then s.getLast? else none

def herePath (d : Disk) : Text := Path.slash :: Text.join [Path.slash] d.here

/-! ## Following paths -/

/-- The most bytes of one name. -/
def nameLimit : Nat := 255

/-- The least number of bytes of a path that is too long. -/
def pathLimit : Nat := 4096

/-- Where a path leads: to an entry, or to a name that is free in a folder that is there. -/
inductive Spot where
  | taken (route : Route) (entry : Entry)
  | free (route : Route)

/-- Follows names from an entry on. -/
def follow (d : Disk) (route : Route) (e : Entry) : List Text → Except Refusal Spot
  | [] => .ok (.taken route e)
  | n :: ns =>
    if e ≠ .folder then .error .noFolder
    else if n = "" ∨ n = "." then follow d route e ns
    else if n = ".." then follow d route.dropLast .folder ns
    else if nameLimit < (Path.bytes n).length then .error .tooLong
    else
      let route := route ++ [Path.onDisk n]
      match d.entry? route with
      | some e' => follow d route e' ns
      | none => if ns.all (· = "") then .ok (.free route) else .error .missing

/-- A path that has no form in bytes, or holds a null byte, is none. -/
def checkPath (p : Text) : Except DiskFault Unit :=
  match Path.encodeFault? 0 p with
  | some fault => .error (.unencodable fault)
  | none => if p.contains (.scalar '\x00') then .error .nullByte else .ok ()

def isTooLong (p : Text) : Bool := pathLimit ≤ (Path.bytes p).length

/-- Where a path leads, or why it leads nowhere. -/
def locate (d : Disk) (p : Text) : Except Refusal Spot :=
  if p = [] then .error .missing
  else if isTooLong p then .error .tooLong
  else if Path.isAbsolute p then follow d [] .folder (Path.names p)
  else follow d d.here .folder (Path.names p)

def at? (d : Disk) (p : Text) : Option Entry :=
  match checkPath p, d.locate p with
  | .ok _, .ok (.taken _ e) => some e
  | _, _ => none

def hasEntry (d : Disk) (p : Text) : Bool := (d.at? p).isSome

def hasFolder (d : Disk) (p : Text) : Bool := d.at? p = some .folder

def hasFile (d : Disk) (p : Text) : Bool :=
  match d.at? p with
  | some (.file _) => true
  | _ => false

/-- Where a path leads, its refusals told with it. -/
def find (d : Disk) (p : Text) : Except DiskFault Spot := do
  checkPath p
  match d.locate p with
  | .ok s => .ok s
  | .error reason => .error (.refused reason p none)

/-! ## Operations -/

def read (d : Disk) (p : Text) : Except DiskFault Bytes := do
  match ← d.find p with
  | .taken _ (.file content) => .ok content
  | .taken _ .folder => .error (.refused .isFolder p none)
  | .free _ => .error (.refused .missing p none)

def list (d : Disk) (p : Text) : Except DiskFault (List Text) := do
  match ← d.find p with
  | .taken r .folder => .ok (d.namesIn r)
  | .taken _ (.file _) => .error (.refused .noFolder p none)
  | .free _ => .error (.refused .missing p none)

/-- The disk with a new folder. A slash after its name does not count, not even where the name is
that of a file. -/
def makeFolder (d : Disk) (p : Text) : Except DiskFault Disk := do
  checkPath p
  if isTooLong p then .error (.refused .tooLong p none)
  else match d.locate (Path.withoutEnd p) with
  | .ok (.free r) => .ok (d.put r .folder)
  | .ok (.taken _ _) => .error (.refused .present p none)
  | .error reason => .error (.refused reason p none)

/-- The disk with an empty file at the path, whether a file was there or not. -/
def openFile (d : Disk) (p : Text) : Except DiskFault Disk := do
  match ← d.find p with
  | .free r => .ok (d.put r (.file []))
  | .taken r (.file _) => .ok (d.put r (.file []))
  | .taken _ .folder => .error (.refused .isFolder p none)

/-- The disk with the content of a file that is there replaced. -/
def writeFile (d : Disk) (p : Text) (content : Bytes) : Disk :=
  match d.locate p with
  | .ok (.taken r (.file _)) => d.put r (.file content)
  | _ => d

/-- A file's content with a piece put over what stands at a position; null bytes fill a gap before
it. -/
def overlaid (old : Bytes) (position : Nat) (piece : Bytes) : Bytes :=
  if piece = [] then old
  else old.take position ++ List.replicate (position - old.length) 0 ++ piece
    ++ old.drop (position + piece.length)

/-- A piece put where the content ends goes behind it. -/
theorem overlaid_length (old piece : Bytes) : overlaid old old.length piece = old ++ piece := by
  unfold overlaid
  split <;> simp_all

/-- The disk with a piece put into a file that is there. -/
def overlay (d : Disk) (p : Text) (position : Nat) (piece : Bytes) : Disk :=
  d.writeFile p (overlaid ((d.read p).toOption.getD []) position piece)

def removeFile (d : Disk) (p : Text) : Except DiskFault Disk := do
  match ← d.find p with
  | .taken r (.file _) => .ok (d.erase r)
  | .taken _ .folder => .error (.refused .isFolder p none)
  | .free _ => .error (.refused .missing p none)

/-- The disk with a file moved to another path, over a file that may be there. -/
def moveFile (d : Disk) (p q : Text) : Except DiskFault Disk := do
  checkPath p
  checkPath q
  match d.locate p, d.locate q with
  | .ok (.taken r (.file content)), .ok (.taken s (.file _)) =>
    .ok (if r = s then d else (d.erase r).put s (.file content))
  | .ok (.taken r (.file content)), .ok (.free s) => .ok ((d.erase r).put s (.file content))
  | .ok (.taken _ (.file _)), .ok (.taken _ .folder) => .error (.refused .isFolder p (some q))
  | .ok (.taken _ (.file _)), .error reason => .error (.refused reason p (some q))
  | .error reason, _ => .error (.refused reason p (some q))
  | _, _ => .error (.refused .missing p (some q))

/-! ## Folders with all those around them -/

/-- What is to be made before the folder at a path: the folder around it. A slash at the end of
the path does not count. -/
def around (p : Text) : Text × Text :=
  if Path.lastName p = [] then (Path.parent (Path.parent p), Path.lastName (Path.parent p))
  else (Path.parent p, Path.lastName p)

/-- Makes the folder at a path and those around it, as far as they are not there. Where the disk
refuses, the folders made before stay. -/
def makeFolders (d : Disk) (p : Text) : Disk × Except DiskFault Unit :=
  let (outer, inner) := around p
  if _ : outer ≠ [] ∧ inner ≠ [] ∧ !d.hasEntry outer ∧ outer.length < p.length then
    match makeFolders d outer with
    | (d, .ok ()) => if inner = "." then (d, .ok ()) else makeLast d
    | (d, .error (.refused .present _ _)) => if inner = "." then (d, .ok ()) else makeLast d
    | r => r
  else makeLast d
termination_by p.length
where
  /-- Makes the folder itself; one that is there is fine. -/
  makeLast (d : Disk) : Disk × Except DiskFault Unit :=
    match d.makeFolder p with
    | .ok d => (d, .ok ())
    | .error fault =>
      if fault.isRefusal && d.hasFolder p then (d, .ok ()) else (d, .error fault)

end Disk

end GalleryScan
