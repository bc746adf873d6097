import GalleryScan.Breakdown
import GalleryScan.Cache.Entries
import GalleryScan.Cache.Key
import GalleryScan.Cache.Store
import GalleryScan.Console.Arguments
import GalleryScan.Console.Report
import GalleryScan.Console.Session
import GalleryScan.Disk.Document
import GalleryScan.Disk.Fault
import GalleryScan.Disk.Name
import GalleryScan.Disk.Path
import GalleryScan.Disk.Stream
import GalleryScan.Disk.Tree
import GalleryScan.Download.Reply
import GalleryScan.Download.Slots
import GalleryScan.Download.Transfer
import GalleryScan.Gallery.Name
import GalleryScan.Gallery.Page
import GalleryScan.Gallery.Record
import GalleryScan.Gallery.Target
import GalleryScan.Json.Reader
import GalleryScan.Json.Value
import GalleryScan.Json.Writer
import GalleryScan.Listing.Fetch
import GalleryScan.Log
import GalleryScan.Main
import GalleryScan.Number.Amount
import GalleryScan.Number.Double
import GalleryScan.Number.Notation
import GalleryScan.Number.Shortest
import GalleryScan.Number.Whole
import GalleryScan.Proofs.Cache.Atomic
import GalleryScan.Proofs.Cache.Faithful
import GalleryScan.Proofs.Cache.Loading
import GalleryScan.Proofs.Cache.Overlay
import GalleryScan.Proofs.Cache.Recognition
import GalleryScan.Proofs.Cache.Resaving
import GalleryScan.Proofs.Cache.RoundTrip
import GalleryScan.Proofs.Cache.Saving
import GalleryScan.Proofs.Cache.Sound
import GalleryScan.Proofs.Console.Outset
import GalleryScan.Proofs.Console.Secrecy
import GalleryScan.Proofs.Disk.Changing
import GalleryScan.Proofs.Disk.Document
import GalleryScan.Proofs.Disk.Folder
import GalleryScan.Proofs.Disk.Following
import GalleryScan.Proofs.Disk.Present
import GalleryScan.Proofs.Disk.Spelling
import GalleryScan.Proofs.Download.Accounting
import GalleryScan.Proofs.Download.AllOrNothing
import GalleryScan.Proofs.Download.Beside
import GalleryScan.Proofs.Download.Echoing
import GalleryScan.Proofs.Download.Filling
import GalleryScan.Proofs.Download.Order
import GalleryScan.Proofs.Download.Queueing
import GalleryScan.Proofs.Download.Quiet
import GalleryScan.Proofs.Download.Receiving
import GalleryScan.Proofs.Download.Safety
import GalleryScan.Proofs.Download.Site
import GalleryScan.Proofs.Download.Stepping
import GalleryScan.Proofs.Download.Telling
import GalleryScan.Proofs.Download.Touching
import GalleryScan.Proofs.Download.Working
import GalleryScan.Proofs.Download.Writing
import GalleryScan.Proofs.Gallery.Cursor
import GalleryScan.Proofs.Gallery.FileName
import GalleryScan.Proofs.Gallery.FitName
import GalleryScan.Proofs.Gallery.Quality
import GalleryScan.Proofs.Json.Decoded
import GalleryScan.Proofs.Json.Reading
import GalleryScan.Proofs.Json.Real
import GalleryScan.Proofs.Json.RoundTrip
import GalleryScan.Proofs.Json.Scalar
import GalleryScan.Proofs.Json.Stopping
import GalleryScan.Proofs.Listing.Asking
import GalleryScan.Proofs.Listing.Fetched
import GalleryScan.Proofs.Listing.Masking
import GalleryScan.Proofs.Listing.Misdirection
import GalleryScan.Proofs.Listing.Retrying
import GalleryScan.Proofs.Listing.Verdict
import GalleryScan.Proofs.Number.Doubling
import GalleryScan.Proofs.Number.Rounding
import GalleryScan.Proofs.Number.Shortest
import GalleryScan.Proofs.Query.Composition
import GalleryScan.Proofs.Query.Derivation
import GalleryScan.Proofs.Query.FreeText
import GalleryScan.Proofs.Query.Grammar
import GalleryScan.Proofs.Query.Lowering
import GalleryScan.Proofs.Query.Occurrence
import GalleryScan.Proofs.Query.Printing
import GalleryScan.Proofs.Query.Separation
import GalleryScan.Proofs.Query.Vetoes
import GalleryScan.Proofs.Query.Words
import GalleryScan.Proofs.Scan.Aborting
import GalleryScan.Proofs.Scan.Course
import GalleryScan.Proofs.Scan.Gathering
import GalleryScan.Proofs.Scan.Heeding
import GalleryScan.Proofs.Scan.Keeping
import GalleryScan.Proofs.Scan.Keying
import GalleryScan.Proofs.Scan.LifeCycle
import GalleryScan.Proofs.Scan.Looking
import GalleryScan.Proofs.Scan.Matches
import GalleryScan.Proofs.Scan.Moving
import GalleryScan.Proofs.Scan.Ordinary
import GalleryScan.Proofs.Scan.Paging
import GalleryScan.Proofs.Scan.Replay
import GalleryScan.Proofs.Scan.Selection
import GalleryScan.Proofs.Scan.Sharing
import GalleryScan.Proofs.Scan.Skipping
import GalleryScan.Proofs.Scan.Twins
import GalleryScan.Proofs.Settings.Checking
import GalleryScan.Proofs.Settings.File
import GalleryScan.Proofs.Settings.Layering
import GalleryScan.Proofs.Text.Caseless
import GalleryScan.Proofs.Text.Lowering
import GalleryScan.Proofs.Text.Pieces
import GalleryScan.Proofs.Text.Utf8
import GalleryScan.Proofs.Web.Escapes
import GalleryScan.Proofs.Web.Query
import GalleryScan.Query.Expr
import GalleryScan.Query.Filter
import GalleryScan.Query.Parser
import GalleryScan.Query.Pattern
import GalleryScan.Query.Token
import GalleryScan.Scan.Run
import GalleryScan.Scan.Start
import GalleryScan.Scan.State
import GalleryScan.Settings.Configuration
import GalleryScan.Settings.Layer
import GalleryScan.Settings.Source
import GalleryScan.Text.Blank
import GalleryScan.Text.Caseless
import GalleryScan.Text.CodePoint
import GalleryScan.Text.Digit
import GalleryScan.Text.Printable
import GalleryScan.Text.Quoted
import GalleryScan.Text.Upper
import GalleryScan.Text.Utf8
import GalleryScan.Text.Word
import GalleryScan.Web.Address
import GalleryScan.Web.Parameters
import GalleryScan.Web.Request
