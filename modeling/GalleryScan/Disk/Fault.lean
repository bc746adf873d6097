import GalleryScan.Text.Quoted
import GalleryScan.Text.Utf8

/-!
# What can go wrong with files

The disk refuses an operation for one of a few reasons and names the path that it was about. A path
that has no form in bytes is refused before the disk is asked.
-/

set_option autoImplicit false

namespace GalleryScan

/-- Why the disk refuses an operation. -/
inductive Refusal where
  | missing
  | present
  | noFolder
  | isFolder
  | tooLong
  deriving DecidableEq

/-- The number that the system gives to a reason. -/
def Refusal.number : Refusal → Nat
  | missing => 2
  | present => 17
  | noFolder => 20
  | isFolder => 21
  | tooLong => 36

def Refusal.words : Refusal → Text
  | missing => "No such file or directory"
  | present => "File exists"
  | noFolder => "Not a directory"
  | isFolder => "Is a directory"
  | tooLong => "File name too long"

/-- Why an operation on files fails: the disk refuses it, or the path is none. -/
inductive DiskFault where
  | refused (reason : Refusal) (path : Text) (target : Option Text)
  | nullByte
  | unencodable (fault : EncodeFault)
  deriving DecidableEq

def DiskFault.message : DiskFault → Text
  | refused reason path target =>
    let place := match target with
      | none => path.quoted
      | some target => path.quoted ++ " -> " ++ target.quoted
    "[Errno " ++ Text.ofNat reason.number ++ "] " ++ reason.words ++ ": " ++ place
  | nullByte => "embedded null byte"
  | unencodable fault => fault.message

/-- Does the disk refuse, rather than the path be none? -/
def DiskFault.isRefusal : DiskFault → Bool
  | refused _ _ _ => true
  | _ => false

end GalleryScan
