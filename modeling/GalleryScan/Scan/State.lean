import GalleryScan.Cache.Store
import GalleryScan.Download.Slots
import GalleryScan.Listing.Fetch
import GalleryScan.Query.Filter

/-!
# The state of a scan

A scan looks through the images of a user, page by page or in the cache, until it has as many
matches as asked for. Each new match is downloaded unless its image is there already. The slots
hold the disk and the log of the whole scan; downloads run only after the last page.
-/

set_option autoImplicit false

namespace GalleryScan

inductive Phase where
  | init
  | scanning
  | draining
  | done
  | aborted
  deriving DecidableEq

def Phase.word : Phase → Text
  | init => "init"
  | scanning => "scanning"
  | draining => "draining"
  | done => "done"
  | aborted => "aborted"

/-- What a scan is asked to do. -/
structure Assignment where
  username : Json
  sort : Json
  nsfw : Json
  /-- The number of matches after which it ends, if it ends before the last item. -/
  limit : Option Int
  /-- Only the cache is looked through. -/
  offline : Bool
  filter : Filter
  client : Client
  /-- Bars show how far the scan and its downloads are. -/
  hasBars : Bool
  /-- What keeps every download from starting. -/
  hindrance : Option Breakdown

/-- What a scan has counted. -/
structure Tally where
  scanned : Nat
  found : Nat
  downloaded : Nat
  skipped : Nat
  userEmpty : Bool

structure Scan where
  assignment : Assignment
  cache : Cache
  slots : Slots
  /-- The replies of the listing's server that are left. -/
  replies : List ListingReply
  tally : Tally
  phase : Phase
  pages : Nat
  matched : List Key

inductive ScanStop where
  | fetch (e : FetchError)
  /-- There is nothing in the cache at this path to look through. -/
  | nothingCached (path : Text)
  | stop (s : Stop)

def nothingCachedMessage (path : Text) : Text :=
  "Offline mode enabled but no metadata found in " ++ path

namespace Scan

/-- The detail about a download that failed, which the scan adds to the report. -/
def onEnd (_ : Record) : Option DownloadError → Log
  | none => []
  | some e => [.detail ("Download failed for " ++ e.id.plain ++ ": " ++ e.cause.message)]

def start (a : Assignment) (cache : Cache) (quality : Text) (concurrency : Int)
    (replies : List ListingReply) (images : ImageServer) (disk : Disk) : Scan :=
  { assignment := a
    cache
    slots := Slots.empty cache.folder quality a.hasBars concurrency (some onEnd) images disk
    replies
    tally := ⟨0, 0, 0, 0, false⟩
    phase := .init
    pages := 0
    matched := [] }

def disk (s : Scan) : Disk := s.slots.disk

def log (s : Scan) : Log := s.slots.log

def failures (s : Scan) : Nat := s.slots.told.countP (·.2.isSome)

def say (s : Scan) (log : Log) : Scan := { s with slots := { s.slots with log := s.log ++ log } }

def withDisk (s : Scan) (disk : Disk) : Scan := { s with slots := { s.slots with disk } }

def isLimitReached (s : Scan) : Bool := s.assignment.limit.any fun n => n ≤ (s.tally.found : Int)

/-- Can bars show how far the scan is, if they are to? -/
def canShowBars (s : Scan) : Bool :=
  !s.assignment.hasBars || !s.assignment.limit.any Double.isTooLarge

end Scan

end GalleryScan
