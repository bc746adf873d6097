import GalleryScan.Disk.Document
import GalleryScan.Log
import GalleryScan.Settings.Configuration

/-!
# Where settings come from

The settings file is a JSON object. A file that is not there gives no settings, and one that is
malformed is reported and gives none; but bytes that form no text, and a whole number of too many
digits, stop the run. The environment gives two settings.
-/

set_option autoImplicit false

namespace GalleryScan

inductive FileStop where
  | undecodable (fault : DecodeFault)
  | tooLong (digits : Nat)

def FileStop.message : FileStop → Text
  | undecodable fault => fault.message
  | tooLong digits => Whole.tooLongMessage digits

namespace Layer

/-- The report about a settings file that gives no settings. -/
def unusable (why : Text) : Event := .line ("[!] Failed to parse config: " ++ why)

def ofDocument (path : Text) : Json → Log × Layer
  | .object members => ([.line ("[*] Loaded config from: " ++ path)], members)
  | x =>
    if x.isTruthy then ([unusable ("expected an object in " ++ path)], [])
    else ([.line ("[*] Loaded config from: " ++ path)], [])

def ofFile (d : Disk) (path : Text) : Log × Except FileStop Layer :=
  let full := Path.absolute d.herePath path
  if path = [] || !d.hasFile full then ([], .ok [])
  else match d.document full with
    | .ok x => let (log, layer) := ofDocument path x; (log, .ok layer)
    | .error (.undecodable fault) => ([], .error (.undecodable fault))
    | .error (.malformed (.tooLong digits)) => ([], .error (.tooLong digits))
    | .error fault => ([unusable fault.message], .ok [])

end Layer

abbrev Environment := List (Text × Text)

namespace Environment

/-- The value of a variable, empty where there is none. -/
def value (e : Environment) (name : Text) : Text := (e.lookup name).getD []

/-- The layer of the environment: a key, and a number of downloads where it is a whole one. -/
def layer (e : Environment) : Log × Layer :=
  let key := e.value "CIVIT_API_KEY"
  let keyLayer : Layer := if key = [] then [] else [(Setting.key .apiKey, .text key)]
  let concurrency := (e.value "CIVIT_CONCURRENCY").strip
  if concurrency = [] then ([], keyLayer)
  else match Whole.read concurrency with
    | .ok n => ([], keyLayer ++ [(Setting.key .concurrency, .int n)])
    | .error _ =>
      ([.line ("[~] Ignoring invalid CIVIT_CONCURRENCY=" ++ concurrency.quoted)], keyLayer)

def detailWords : List Text := [Text.ofString "1", "true", "yes", "on"]

/-- Does a variable's value ask for details? No letter beyond ASCII becomes one of the words in
lower case. -/
def isYes (value : Text) : Bool := detailWords.contains (Text.lowered value)

def isVerbose (e : Environment) : Bool := isYes (e.value "CIVIT_DEBUG")

end Environment

inductive ConfigurationFault where
  | file (stop : FileStop)
  | settings (fault : SettingsFault)

def ConfigurationFault.message : ConfigurationFault → Text
  | file stop => stop.message
  | settings fault => fault.message

/-- The configuration of a user's settings: the defaults under the file, the environment and the
options, in this order. The user is always the one given. -/
def Configuration.create (d : Disk) (environment : Environment) (path : Text)
    (username : Json) (options : Layer) : Log × Except ConfigurationFault Configuration :=
  let (log, file) := Layer.ofFile d path
  match file with
  | .error stop => (log, .error (.file stop))
  | .ok file =>
    let (log', given) := environment.layer
    let settings := ((Settings.defaults.under file).under given).under options
    match Configuration.ofSettings? (settings.set .username username) with
    | .ok c => (log ++ log', .ok c)
    | .error fault => (log ++ log', .error (.settings fault))

end GalleryScan
