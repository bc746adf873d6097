import GalleryScan.Number.Amount
import GalleryScan.Web.Request

/-!
# What a run does to the outside

Everything that a run prints, requests and waits for is one list of events in the order in which
they happen. Details are printed only where someone asked for them.
-/

set_option autoImplicit false

namespace GalleryScan

/-- One thing that a run does to the outside. -/
inductive Event where
  /-- A line for the user. -/
  | line (text : Text)
  /-- A line for someone who looks for an error. -/
  | detail (text : Text)
  | request (r : Request)
  | pause (length : Amount)

/-- What happened, in order. -/
abbrev Log := List Event

namespace Log

def lineOf? (verbose : Bool) : Event → Option Text
  | .line t => some t
  | .detail t => if verbose then some ("[debug] " ++ t) else none
  | _ => none

/-- What is printed, each line with its end. -/
def output (verbose : Bool) (log : Log) : Text :=
  (log.filterMap (lineOf? verbose)).flatMap (· ++ "\n")

def requests (log : Log) : List Request :=
  log.filterMap fun
    | .request r => some r
    | _ => none

def pauses (log : Log) : List Amount :=
  log.filterMap fun
    | .pause length => some length
    | _ => none

end Log

end GalleryScan
