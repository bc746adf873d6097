import GalleryScan.Cache.Key
import GalleryScan.Disk.Fault
import GalleryScan.Number.Amount
import GalleryScan.Web.Address

/-!
# Errors that nobody expects

Most errors are reported in one line or handled on the way. The ones gathered here are neither:
they end the program wherever they arise.
-/

set_option autoImplicit false

namespace GalleryScan

inductive Breakdown where
  /-- The disk refuses an operation that has to succeed. -/
  | disk (fault : DiskFault)
  | system (message : Text)
  | key (fault : KeyFault)
  /-- The address of a next page is malformed. -/
  | address (fault : AddressFault)
  /-- A file holds a whole number of too many digits. -/
  | longNumber (digits : Nat)
  /-- The settings file is no text. -/
  | undecodable (fault : DecodeFault)
  /-- A number of the settings has no bounds. -/
  | infinite
  /-- A whole number is too large for a number with a point. -/
  | tooLarge
  /-- A key for the gallery is shown of which no end can be taken. -/
  | noEnd (kind : Text)
  /-- The end is taken of an object. -/
  | endOfObject
  /-- A filter is no text: the word for its kind and the operation that fails. -/
  | noText (kind operation : Text)
  | noPath (kind : Text)
  /-- A user has no name from which a folder's name could be made. -/
  | noName (kind : Text)
  | noNumber (kind : Text)

def Breakdown.message : Breakdown → Text
  | disk fault => fault.message
  | system message => message
  | key fault => fault.message
  | address fault => fault.message
  | longNumber digits => Whole.tooLongMessage digits
  | undecodable fault => fault.message
  | infinite => "cannot convert float infinity to integer"
  | tooLarge => Amount.tooLargeMessage
  | noEnd kind => "'" ++ kind ++ "' object is not subscriptable"
  | endOfObject => "unhashable type: 'slice'"
  | noText kind operation => "'" ++ kind ++ "' object has no attribute '" ++ operation ++ "'"
  | noPath kind => "expected str, bytes or os.PathLike object, not " ++ kind
  | noName kind => "expected string or bytes-like object, got '" ++ kind ++ "'"
  | noNumber kind => "'>' not supported between instances of '" ++ kind ++ "' and 'int'"

/-- What ends the program early: an error, or someone who asks it to stop. -/
inductive Stop where
  | breakdown (b : Breakdown)
  | interrupted (message : Text)

def Stop.isInterrupt : Stop → Bool
  | breakdown _ => false
  | interrupted _ => true

end GalleryScan
