import GalleryScan.Scan.Run
import GalleryScan.Settings.Configuration

/-!
# From settings to a scan

A scan can be made of any settings, checked or not. A filter that is malformed is reported. A filter
that is no text, a user without a name, an output folder that is no path and a number of downloads
that is no number end the program at once; a quality that is no text ends it at the first download.
A limit may have a point, and one that is no number counts as none.
-/

set_option autoImplicit false

namespace GalleryScan

inductive StartStop where
  | query (e : QueryError)
  | breakdown (b : Breakdown)

/-- The text of a setting that may be missing, and on which `operation` is used where it is not. -/
def textSetting (operation : Text) : Json → Except Breakdown Text
  | .text t => .ok t
  | x => if x.isTruthy then .error (.noText x.kind operation) else .ok []

namespace Settings

def filter? (s : Settings) : Except StartStop Filter :=
  match textSetting "split" (s .excludeTags), textSetting "strip" (s .tags) with
  | .error b, _ => .error (.breakdown b)
  | .ok _, .error b => .error (.breakdown b)
  | .ok excludeList, .ok query =>
    match Filter.compile? query excludeList with
    | .ok f => .ok f
    | .error e => .error (.query e)

/-- The empty cache of the user that settings name. -/
def cache? (s : Settings) : Except Breakdown Cache :=
  let username := s .username
  match username, s .output with
  | .text t, .text output => .ok (Cache.ofUser output t)
  | .text _, output => .error (.noPath output.kind)
  | _, output =>
    if username.isTruthy then .error (.noName username.kind)
    else match output with
      | .text output => .ok (Cache.ofUser output [])
      | output => .error (.noPath output.kind)

/-- The number of downloads at a time that settings ask for. -/
def concurrency? (s : Settings) : Except Breakdown Int :=
  match s .concurrency with
  | .int n => .ok n
  | .bool _ | .null => .ok 1
  | .real x => .ok (x.truncate?.getD 1)
  | x => .error (.noNumber x.kind)

/-- The number of matches at which a limit is reached. -/
def limit? (s : Settings) : Option Int :=
  match s .limit with
  | .int n => some n
  | .bool b => some (if b then 1 else 0)
  | .real x => x.ceiling?
  | _ => none

def quality? (s : Settings) : Except Breakdown Text :=
  match s .quality with
  | .text t => .ok t
  | x => .error (.noText x.kind "upper")

end Settings

namespace Scan

def ofSettings? (s : Settings) (replies : List ListingReply) (images : ImageServer) (disk : Disk) :
    Except StartStop Scan := do
  let filter ← s.filter?
  let cache ← s.cache?.mapError .breakdown
  let concurrency ← s.concurrency?.mapError .breakdown
  let (quality, hindrance) := match s.quality? with
    | .ok quality => (quality, none)
    | .error b => ([], some b)
  let assignment : Assignment := {
    username := s .username
    sort := s .sort
    nsfw := s .nsfw
    limit := s.limit?
    offline := (s .offline).isTruthy
    filter
    client := Client.withKey (s .apiKey)
    hasBars := (s .showProgress).isTruthy
    hindrance }
  return Scan.start assignment cache quality concurrency replies images disk

def ofConfiguration? (c : Configuration) (replies : List ListingReply) (images : ImageServer)
    (disk : Disk) : Except StartStop Scan :=
  ofSettings? c.settings replies images disk

end Scan

end GalleryScan
