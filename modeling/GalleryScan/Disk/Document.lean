import GalleryScan.Disk.Tree
import GalleryScan.Json.Reader

/-!
# JSON files

Settings and the cache are files that hold one JSON text each. Line ends of every kind count as one
line feed before the text is read.
-/

set_option autoImplicit false

namespace GalleryScan

/-- Why a file gives no value. -/
inductive DocumentFault where
  | unreadable (fault : DiskFault)
  | undecodable (fault : DecodeFault)
  | malformed (error : JsonError)

def DocumentFault.message : DocumentFault → Text
  | unreadable fault => fault.message
  | undecodable fault => fault.message
  | malformed error => error.message

def Bytes.document (content : Bytes) : Except DocumentFault Json :=
  match content.decode with
  | .error fault => .error (.undecodable fault)
  | .ok t =>
    match Json.read t.withLineFeeds with
    | .error e => .error (.malformed e)
    | .ok x => .ok x

def Disk.document (d : Disk) (path : Text) : Except DocumentFault Json :=
  match d.read path with
  | .error fault => .error (.unreadable fault)
  | .ok content => Bytes.document content

end GalleryScan
