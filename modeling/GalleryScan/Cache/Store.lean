import GalleryScan.Cache.Entries
import GalleryScan.Disk.Document
import GalleryScan.Gallery.Name
import GalleryScan.Json.Writer

/-!
# The cache of a user

A user's folder holds the images and one file with all cached entries. Loading reads that file; a
file that cannot be read is reported and counts as empty, so that no run is lost to it. Saving
writes the entries to a draft beside the file and moves it over the file, so that either all of the
new content is there or all of the old. The names of the files in the folder are looked up once
and tell which images are there.
-/

set_option autoImplicit false

namespace GalleryScan

/-- A user's cache in memory. -/
structure Cache where
  folder : Text
  entries : Entries
  /-- The names of the files in the folder, without their extensions. -/
  files : List Text

/-- What stops a run that loads its cache. -/
inductive CacheStop where
  | key (fault : KeyFault)
  | tooLong (digits : Nat)

def CacheStop.message : CacheStop → Text
  | key fault => fault.message
  | tooLong digits => Whole.tooLongMessage digits

namespace Cache

def fileName : Text := "metadata.json"

/-- The empty cache of a user under an output folder. -/
def ofUser (output username : Text) : Cache :=
  ⟨Path.join output (Text.fitName folderDefault username), [], []⟩

def path (c : Cache) : Text := Path.join c.folder fileName

def size (c : Cache) : Nat := c.entries.length

def records (c : Cache) : List Record := c.entries.records

/-- Is there no usable record? -/
def isEmpty (c : Cache) : Bool := c.records.isEmpty

/-- Is there a file named after the id, whatever its extension? -/
def hasFile (c : Cache) (id : Json) : Bool := c.files.contains id.plain

def insertAll (c : Cache) (rs : List Record) : Cache × Except KeyFault Unit :=
  let (entries, result) := c.entries.insertAll rs
  ({ c with entries }, result)

/-! ## Loading -/

/-- The report about a cache file that counts as empty. -/
def corrupt (c : Cache) (why : Text) : Event :=
  .line ("[~] Corrupt metadata file '" ++ c.path ++ "': " ++ why ++ "; starting fresh.")

def load (c : Cache) (d : Disk) : Log × Cache × Except CacheStop Unit :=
  let fresh := { c with entries := [] }
  if !d.hasEntry c.path then ([], fresh, .ok ())
  else match d.document c.path with
    | .error (.malformed (.tooLong digits)) => ([], fresh, .error (.tooLong digits))
    | .error fault => ([c.corrupt fault.message], fresh, .ok ())
    | .ok (.array items) =>
      match Entries.readItems [] items with
      | (log, .error fault) => (log, fresh, .error (.key fault))
      | (log, .ok entries) =>
        let loaded : Event :=
          .detail ("Loaded " ++ Text.ofNat entries.length ++ " cached entries from " ++ c.path)
        (log ++ [loaded], { c with entries }, .ok ())
    | .ok _ => ([c.corrupt "expected a list"], fresh, .ok ())

/-- The cache with the names of the files in its folder. -/
def indexFiles (c : Cache) (d : Disk) : Except DiskFault Cache :=
  match d.list c.folder with
  | .ok names => .ok { c with files := names.map Path.stem }
  | .error (.refused .missing _ _) => .ok { c with files := [] }
  | .error fault => .error fault

/-! ## Saving -/

/-- Why the entries could not be saved. -/
inductive SaveFault where
  | disk (fault : DiskFault)
  | unencodable (fault : EncodeFault)

def SaveFault.message : SaveFault → Text
  | disk fault => fault.message
  | unencodable fault => fault.message

/-- The name of a draft, with as many stars as said. -/
def draftName (stars : Nat) : Text :=
  Text.ofString ".metadata-" ++ List.replicate stars (CodePoint.scalar '*') ++ ".tmp"

/-- The number of stars that makes a draft's name new among the names in a folder. -/
def freeStars (names : List Text) : Nat :=
  let free? := (List.range names.length).find? fun k => !names.contains (draftName (k + 1))
  free?.getD names.length + 1

def draftPath (c : Cache) (d : Disk) : Text :=
  let folder := Path.absolute d.herePath c.folder
  Path.join folder (draftName (freeStars ((d.list folder).toOption.getD [])))

/-- The bytes of pieces of text, unless one has no form in bytes. -/
def encodePieces : List Text → Except EncodeFault Bytes
  | [] => .ok []
  | p :: ps => do
    let b ← p.encode
    let bs ← encodePieces ps
    return b ++ bs

def discard (d : Disk) (draft : Text) : Disk := (d.removeFile draft).toOption.getD d

/-- Writes the entries to the cache file by way of a draft, of which nothing stays on failure. -/
def write (c : Cache) (d : Disk) : Disk × Except SaveFault Unit :=
  let draft := c.draftPath d
  match d.openFile draft with
  | .error fault => (d, .error (.disk fault))
  | .ok d =>
    match encodePieces (c.entries.document.pieces 0) with
    | .error fault => (discard d draft, .error (.unencodable fault))
    | .ok content =>
      let d := d.writeFile draft content
      -- Only here does the old content go, and the new is complete by then.
      match d.moveFile draft c.path with
      | .error fault => (discard d draft, .error (.disk fault))
      | .ok d => (d, .ok ())

/-- Saves the entries. A failure is reported and the cache in memory stays as it is. -/
def save (c : Cache) (d : Disk) : Log × Disk × Bool :=
  match c.write d with
  | (d, .ok ()) => ([], d, true)
  | (d, .error fault) => ([.line ("[!] Failed to save metadata: " ++ fault.message)], d, false)

end Cache

end GalleryScan
