import GalleryScan.Console.Arguments
import GalleryScan.Console.Report
import GalleryScan.Scan.Start
import GalleryScan.Settings.Source

/-!
# A session at the console

From the words of the command line to the status that the program ends with. Errors that are
foreseen end it with one line and status 1, a refused command line with status 2, and a wish to
stop with status 130; an error that nobody expects is handed on as it is.
-/

set_option autoImplicit false

namespace GalleryScan

inductive Exit where
  | status (n : Nat)
  | breakdown (b : Breakdown)

/-- What the program is given. -/
structure Surroundings where
  environment : Environment
  disk : Disk
  replies : List ListingReply
  images : ImageServer

/-- What a session leaves. -/
structure Session where
  exit : Exit
  log : Log
  errors : Text
  disk : Disk

namespace Session

def program : Text := "civitgrab"

def versionLine : Text := program ++ " 1.0.0"

def usage : Text := "usage: " ++ program ++ " [options] username"

/-- The line about an option for someone who asks for help. -/
def helpLine (o : CommandOption) : Text :=
  let value : Text := if o.takesValue then " VALUE" else ""
  "\n  " ++ Text.join ", " o.marks ++ value

def help : Text :=
  usage ++ "\n\nDownload images from a specific civitai user.\n\noptions:"
    ++ CommandOption.all.flatMap helpLine

def ofDetour (disk : Disk) : Detour → Session
  | .help => ⟨.status 0, [.line help], [], disk⟩
  | .version => ⟨.status 0, [.line versionLine], [], disk⟩
  | d => ⟨.status 2, [], usage ++ "\n" ++ program ++ ": error: " ++ d.message ++ "\n", disk⟩

/-- A session that ends with an error that is foreseen. -/
def fatal (log : Log) (disk : Disk) (message : Text) : Session :=
  ⟨.status 1, log, "\n[!] Fatal Error: " ++ message ++ "\n", disk⟩

/-- A session that ends with an error that nobody expects. -/
def broken (log : Log) (disk : Disk) (b : Breakdown) : Session := ⟨.breakdown b, log, [], disk⟩

def stopped (log : Log) (disk : Disk) : Session :=
  ⟨.status 130, log ++ [.line "\n[!] Exiting..."], [], disk⟩

def ofScan (log : Log) (s : Scan) : Except ScanStop Unit → Session
  | .error (.fetch e) => fatal (log ++ s.log) s.disk e.message
  | .error (.nothingCached path) => fatal (log ++ s.log) s.disk (nothingCachedMessage path)
  | .error (.stop (.breakdown b)) => broken (log ++ s.log) s.disk b
  | .error (.stop (.interrupted _)) => stopped (log ++ s.log) s.disk
  | .ok () =>
    ⟨.status 0, log ++ s.log ++ if s.tally.userEmpty then [] else Report.summary s, [], s.disk⟩

def withConfiguration (w : Surroundings) (log : Log) (c : Configuration) : Session :=
  match Report.settings? c with
  | .error b => broken log w.disk b
  | .ok lines =>
    let log := log ++ lines
    match Scan.ofConfiguration? c w.replies w.images w.disk with
    | .error (.query e) => fatal log w.disk e.message
    | .error (.breakdown b) => broken log w.disk b
    | .ok s => let (s, result) := s.run; ofScan log s result

def run (w : Surroundings) (words : List Text) : Session :=
  match Arguments.ofWords words with
  | .error d => ofDetour w.disk d
  | .ok (username, a) =>
    match Configuration.create w.disk w.environment a.configPath (.text username) a.options with
    | (log, .ok c) => withConfiguration w log c
    | (log, .error (.file (.undecodable fault))) => broken log w.disk (.undecodable fault)
    | (log, .error (.file (.tooLong digits))) => broken log w.disk (.longNumber digits)
    | (log, .error (.settings .infinite)) => broken log w.disk .infinite
    | (log, .error (.settings fault)) => fatal log w.disk fault.message

end Session

end GalleryScan
