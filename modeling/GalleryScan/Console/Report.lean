import GalleryScan.Scan.State
import GalleryScan.Settings.Configuration

/-!
# What a run tells its user

Before a run its settings are listed, and after it what came of it. Of a key only the end is shown.
-/

set_option autoImplicit false

namespace GalleryScan

/-- A word in the plural, unless the count is one. -/
def pluralOf (count : Amount) (word : Text) : Text :=
  let isOne : Bool := match count with
    | .whole n => n = 1
    | .real x => x.whole? = some 1
  if isOne then word else word ++ "s"

namespace Report

/-- How many signs of a key are shown. -/
def shownEnd : Nat := 4

def lastOnes {α : Type} (xs : List α) : List α := xs.drop (xs.length - shownEnd)

def keyEnd? : Json → Except Breakdown Text
  | .text t => .ok (lastOnes t)
  | .array xs => .ok (Json.array (lastOnes xs)).shown
  | .object _ => .error .endOfObject
  | x => .error (.noEnd x.kind)

def keyNote? (key : Json) : Except Breakdown Text :=
  if key.isTruthy then (keyEnd? key).map fun e => "Active (..." ++ e ++ ")"
  else .ok "Not Provided"

def rule : Text := List.replicate 48 (.scalar '-')

def orNone (x : Json) : Text := if x.isTruthy then x.plain else "None"

def settings? (c : Configuration) : Except Breakdown Log := do
  let key ← keyNote? c.apiKey
  return [
    .line rule,
    .line "[*] Current Configuration:",
    .line ("  - Target User:  " ++ c.username),
    .line ("  - API Key:      " ++ key),
    .line ("  - Logic Filter: " ++ orNone c.tags),
    .line ("  - Exclusions:   " ++ orNone c.excludeTags),
    .line ("  - Mode:         "
      ++ if c.offline.isTruthy then Text.ofString "OFFLINE" else "ONLINE"),
    .line ("  - Match Limit:  " ++ Text.ofInt c.limit ++ " " ++ pluralOf (.whole c.limit) "item"),
    .line ("  - Quality:      " ++ c.quality),
    .line ("  - Output Path:  " ++ c.output.plain),
    .line (rule ++ "\n")]

def summary (s : Scan) : Log :=
  let failures : Log :=
    if s.failures = 0 then [] else [.line ("Failed:        " ++ Text.ofNat s.failures)]
  [.line "\n--- Summary ---",
   .line ("Source:        "
    ++ if s.assignment.offline then Text.ofString "Local Cache" else "CivitAI API"),
   .line ("Items Scanned: " ++ Text.ofNat s.tally.scanned),
   .line ("Matches Found: " ++ Text.ofNat s.tally.found),
   .line ("Downloaded:    " ++ Text.ofNat s.tally.downloaded),
   .line ("Skipped (Old): " ++ Text.ofNat s.tally.skipped)]
  ++ failures
  ++ [.line ("Location:      " ++ Path.absolute s.disk.herePath s.cache.folder),
      .line ("Metadata:      " ++ s.cache.path)]

end Report

end GalleryScan
