import GalleryScan.Number.Whole
import GalleryScan.Settings.Layer
import GalleryScan.Text.Upper

/-!
# Checked settings

Before a run the settings are checked: there has to be a user, the two numbers have to be whole and
at least one, and the quality has to be one of two. What is not checked is taken as it was given,
whatever it is.
-/

set_option autoImplicit false

namespace GalleryScan

inductive CountFault where
  | text (t : Text) (fault : WholeFault)
  | notANumber
  | kind (word : Text)
  deriving DecidableEq

def CountFault.message : CountFault → Text
  | text t fault => fault.message t
  | notANumber => "cannot convert float NaN to integer"
  | kind word =>
    "int() argument must be a string, a bytes-like object or a real number, not '" ++ word ++ "'"

inductive SettingsFault where
  | usernameMissing
  | notWhole (cause : CountFault)
  | limitTooSmall (limit : Int)
  | concurrencyTooSmall (concurrency : Int)
  | qualityUnknown (quality : Text)
  /-- A number without bounds is not foreseen. -/
  | infinite
  deriving DecidableEq

def SettingsFault.message : SettingsFault → Text
  | usernameMissing => "A target username is required."
  | notWhole cause => "limit and concurrency must be integers: " ++ cause.message
  | limitTooSmall n => "limit must be at least 1, got " ++ Text.ofInt n
  | concurrencyTooSmall n => "concurrency must be at least 1, got " ++ Text.ofInt n
  | qualityUnknown q => "quality must be one of HD, SD, got '" ++ q ++ "'"
  | infinite => "cannot convert float infinity to integer"

/-- The whole number that a value stands for: numbers lose what is behind the point. -/
def Json.whole? : Json → Except SettingsFault Int
  | .int n => .ok n
  | .bool b => .ok (if b then 1 else 0)
  | .real x =>
    match x with
    | .nan => .error (.notWhole .notANumber)
    | .infinity _ => .error .infinite
    | .finite .. => .ok (x.truncate?.getD 0)
  | .text t =>
    match Whole.read t with
    | .ok n => .ok n
    | .error fault => .error (.notWhole (.text t fault))
  | x => .error (.notWhole (.kind x.kind))

/-- Settings that passed the checks. -/
structure Configuration where
  username : Text
  tags : Json
  excludeTags : Json
  nsfw : Json
  sort : Json
  limit : Int
  output : Json
  concurrency : Int
  quality : Text
  apiKey : Json
  offline : Json
  showProgress : Json

namespace Configuration

def settings (c : Configuration) : Settings
  | .username => .text c.username
  | .tags => c.tags
  | .excludeTags => c.excludeTags
  | .nsfw => c.nsfw
  | .sort => c.sort
  | .limit => .int c.limit
  | .output => c.output
  | .concurrency => .int c.concurrency
  | .quality => .text c.quality
  | .apiKey => c.apiKey
  | .offline => c.offline
  | .showProgress => c.showProgress

def qualities : List Text := [Text.ofString "HD", "SD"]

def ofSettings? (s : Settings) : Except SettingsFault Configuration := do
  let username := (s .username).plain.strip
  if !(s .username).isTruthy || username = [] then throw .usernameMissing
  let limit ← (s .limit).whole?
  let concurrency ← (s .concurrency).whole?
  if limit < 1 then throw (.limitTooSmall limit)
  if concurrency < 1 then throw (.concurrencyTooSmall concurrency)
  let quality := (s .quality).plain.upper
  if !qualities.contains quality then throw (.qualityUnknown quality)
  return {
    username, limit, concurrency, quality
    tags := s .tags
    excludeTags := s .excludeTags
    nsfw := s .nsfw
    sort := s .sort
    output := s .output
    apiKey := s .apiKey
    offline := s .offline
    showProgress := s .showProgress }

end Configuration

end GalleryScan
