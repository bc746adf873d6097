import GalleryScan.Breakdown
import GalleryScan.Disk.Stream
import GalleryScan.Download.Reply
import GalleryScan.Gallery.Target
import GalleryScan.Log

/-!
# One download

A download whose file is there already is over at once, without a request. Otherwise one request is
sent, the file is opened when the answer has arrived in order, and what comes is written to it
until the body has ended. A download that fails or is cancelled removes its file. It runs until it
ends or stands at a closed gate.
-/

set_option autoImplicit false

namespace GalleryScan

/-- Why a download failed. -/
inductive DownloadCause where
  | request (fault : TransportFault)
  | refused (status : Int)
  | length (t : Text) (fault : WholeFault)
  /-- The announced length is too large for a bar that shows how far the download is. -/
  | noBar
  | disk (fault : DiskFault)
  | body (message : Text)

def DownloadCause.message : DownloadCause → Text
  | request fault => fault.message
  | refused status => "HTTP " ++ Text.ofInt status
  | length t fault => fault.message t
  | noBar => Amount.tooLargeMessage
  | disk fault => fault.message
  | body message => message

structure DownloadError where
  id : Json
  cause : DownloadCause

def DownloadError.message (e : DownloadError) : Text :=
  "Error downloading " ++ e.id.plain ++ ": " ++ e.cause.message

/-- What is fetched from where to where, and whether a bar shows how far it is. -/
structure Transfer where
  id : Json
  url : Text
  path : Text
  hasBar : Bool

/-- The transfer of a record's image into a folder. -/
def Record.transfer (quality folder : Text) (hasBar : Bool) (r : Record) : Transfer :=
  let target := r.target quality
  ⟨r.id, target.url, Path.join folder target.fileName, hasBar⟩

/-- How a download ends. -/
inductive Outcome where
  /-- The file is there, from now on or from before. -/
  | saved
  | failed (e : DownloadError)
  | cancelled
  | stopped (s : Stop)

/-- The gate at which a download stands. -/
inductive Gate where
  | answer
  /-- In the body: the chunks to come, the break after them, and the file. -/
  | body (rest : List Chunk) (break? : Option Text) (file : Stream)

/-- Where a download stands after a step. -/
inductive Progress where
  | standing (gate : Gate)
  | ended (outcome : Outcome)

/-- What a step of a download leaves; a step goes on until a closed gate or the end. -/
structure Step where
  log : Log
  disk : Disk
  progress : Progress

namespace Transfer

/-! ## The end -/

/-- Removes what there is under the name of a download's file. A file that is not there is fine,
and a refusal is reported. -/
def clear (t : Transfer) (d : Disk) : Log × Disk × Option Breakdown :=
  match d.removeFile t.path with
  | .ok d => ([], d, none)
  | .error (.refused .missing _ _) => ([], d, none)
  | .error fault =>
    if fault.isRefusal then
      ([.line ("[~] Could not remove partial file '" ++ t.path ++ "': " ++ fault.message)], d, none)
    else ([], d, some (.disk fault))

/-- The end of a download that leaves no file. -/
def endWithout (t : Transfer) (d : Disk) (outcome : Outcome) : Step :=
  match t.clear d with
  | (log, d, none) => ⟨log, d, .ended outcome⟩
  | (log, d, some b) => ⟨log, d, .ended (.stopped (.breakdown b))⟩

def fail (t : Transfer) (d : Disk) (cause : DownloadCause) : Step :=
  t.endWithout d (.failed ⟨t.id, cause⟩)

/-- The end of a download that is cancelled after its request. -/
def cancel (t : Transfer) (d : Disk) : Step := t.endWithout d .cancelled

/-- The end of a download whose body has arrived. -/
def save (t : Transfer) (d : Disk) (file : Stream) : Step :=
  ⟨[], file.close d t.path, .ended .saved⟩

/-! ## The body -/

/-- Takes chunks up to a closed gate or the end of the body, which an empty chunk marks too. -/
def receive (t : Transfer) (gatesOpen : Bool) (break? : Option Text) (d : Disk) (file : Stream) :
    List Chunk → Step
  | [] =>
    match break? with
    | none => t.save d file
    | some message => t.fail d (.body message)
  | .data [] :: _ => t.save d file
  | .data (b :: bs) :: rest =>
    let (d, file) := file.write d t.path (b :: bs)
    t.receive gatesOpen break? d file rest
  | .gate :: rest =>
    if gatesOpen then t.receive gatesOpen break? d file rest
    else ⟨[], d, .standing (.body rest break? file)⟩

/-- The length that an answer announces, zero where it announces none. -/
def announced (headers : List (Text × Text)) : Except DownloadCause Int :=
  match header? "content-length" headers with
  | none | some [] => .ok 0
  | some t =>
    match Whole.read t with
    | .ok n => .ok n
    | .error fault => .error (.length t fault)

def opening (t : Transfer) (length : Int) : Event :=
  .detail ("Saving to '" ++ t.path ++ "' size="
    ++ if length = 0 then Text.ofString "unknown" else Text.ofInt length)

/-- Goes on when the answer, or the failure of the request, arrives. -/
def respond (t : Transfer) (d : Disk) (gatesOpen : Bool) (reply : ImageReply) : Step :=
  match reply.answer with
  | .error fault =>
    -- No file is open yet, so there is nothing to remove when the user breaks off here.
    if fault.kind = .interrupt then ⟨[], d, .ended (.stopped (.interrupted fault.message))⟩
    else t.fail d (.request fault)
  | .ok a =>
    if 400 ≤ a.status then t.fail d (.refused a.status)
    else match announced a.headers with
      | .error cause => t.fail d cause
      | .ok length =>
        let step := match d.openFile t.path with
          | .error fault => t.fail d (.disk fault)
          | .ok d =>
            -- The bar is made after the file, whose name is therefore free again only after `fail`.
            if t.hasBar && Double.isTooLarge length then t.fail d .noBar
            else t.receive gatesOpen a.break? d .opened a.chunks
        { step with log := t.opening length :: step.log }

/-! ## Steps -/

def request (t : Transfer) : Request :=
  ⟨t.url, none, [(Text.ofString "Accept", Text.ofString "image/*,*/*;q=0.8")]⟩

def start (t : Transfer) (d : Disk) (gatesOpen : Bool) (server : ImageServer) : Step :=
  if d.hasEntry t.path then
    ⟨[.detail ("Skipping existing file: " ++ t.path)], d, .ended .saved⟩
  else
    let reply := server.replyTo t.url
    let step : Step :=
      if reply.gated && !gatesOpen then ⟨[], d, .standing .answer⟩ else t.respond d gatesOpen reply
    { step with
      log := .detail ("Start download: id=" ++ t.id.plain ++ " url='" ++ t.url ++ "'")
        :: .request t.request :: step.log }

def resume (t : Transfer) (d : Disk) (gatesOpen : Bool) (reply : ImageReply) : Gate → Step
  | .answer => t.respond d gatesOpen reply
  | .body rest break? file => t.receive gatesOpen break? d file rest

end Transfer

end GalleryScan
