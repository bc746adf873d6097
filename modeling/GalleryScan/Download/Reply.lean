import GalleryScan.Text.Utf8
import GalleryScan.Web.Request

/-!
# What an image server does

An image comes in chunks. A server may hold back: its answer stands behind a gate, or a gate stands
between two chunks, and whoever waits there goes on when it is opened. A server is a list of
replies, each with a mark; a request gets the first reply whose mark occurs in its address.
-/

set_option autoImplicit false

namespace GalleryScan

inductive Chunk where
  | data (content : Bytes)
  | gate

structure ImageAnswer where
  status : Int
  headers : List (Text × Text)
  chunks : List Chunk
  /-- What is said where the connection breaks after the last chunk. -/
  break? : Option Text

/-- What a server does with a request: it answers, or the request fails, behind a gate or not. -/
structure ImageReply where
  gated : Bool
  answer : Except TransportFault ImageAnswer

/-- The reply to a request that nothing is said about. -/
def ImageReply.usual : ImageReply := ⟨false, .ok ⟨200, [], [.data (Text.bytes "img")], none⟩⟩

/-- Replies with the marks of the addresses that they are for. -/
abbrev ImageServer := List (Text × ImageReply)

def ImageServer.replyTo (server : ImageServer) (url : Text) : ImageReply :=
  ((server.find? fun (mark, _) => Text.occursIn mark url).map (·.2)).getD .usual

end GalleryScan
