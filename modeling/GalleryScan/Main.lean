import GalleryScan.Console.Session

/-!
# The program

Reads the folder that the program is started in, runs a session on it, and carries over what the
session changed. Nothing is connected to a network here: every request fails, so that only what the
cache holds can be looked through.
-/

set_option autoImplicit false

namespace GalleryScan

namespace Program

def depth : Nat := 64

def unreachable : TransportFault := ⟨.connection, "no network"⟩

/-- What the program is given, for the entries below the working folder. -/
def surroundings (environment : Environment) (here : Route) (entries : List (Route × Entry)) :
    Surroundings :=
  ⟨environment, ⟨here, entries⟩, [.error unreachable], [([], ⟨false, .error unreachable⟩)]⟩

def routeOf (path : String) : Route := (Path.names (Text.ofString path)).filter (· ≠ [])

def pathOf (r : Route) : String :=
  Text.toString (Path.slash :: Text.join [Path.slash] r)

/-- The entries of the second disk that the first one lacks or has with another content. -/
def changed (before after : Disk) : List (Route × Entry) :=
  after.entries.filter fun (r, e) => before.entry? r ≠ some e

/-- The entries of the first disk that the second one lacks. -/
def removed (before after : Disk) : List (Route × Entry) :=
  before.entries.filter fun (r, _) => (after.entry? r).isNone

/-- Everything below a folder, down to a depth. -/
def entriesBelow (depth : Nat) (folder : IO.FS.DirEntry) (r : Route) :
    IO (List (Route × Entry)) := do
  match depth with
  | 0 => return []
  | depth + 1 =>
    let mut entries := []
    for e in ← folder.path.readDir do
      let route := r ++ [Text.ofString e.fileName]
      if ← e.path.isDir then
        entries := entries ++ (route, .folder) :: (← entriesBelow depth e route)
      else
        let content ← IO.FS.readBinFile e.path
        entries := entries ++ [(route, .file content.data.toList)]
    return entries

/-- Carries over what has changed from one disk to another. -/
def carryOver (before after : Disk) : IO Unit := do
  for (r, e) in changed before after do
    match e with
    | .folder => IO.FS.createDirAll (pathOf r)
    | .file content => IO.FS.writeBinFile (pathOf r) ⟨content.toArray⟩
  for (r, _) in removed before after do
    IO.FS.removeFile (pathOf r)

def readEnvironment : IO Environment := do
  let mut environment := []
  for name in ["CIVIT_API_KEY", "CIVIT_CONCURRENCY", "CIVIT_DEBUG"] do
    if let some value ← IO.getEnv name then
      environment := environment ++ [(Text.ofString name, Text.ofString value)]
  return environment

end Program

end GalleryScan

open GalleryScan Program in
def main (words : List String) : IO UInt32 := do
  let folder ← IO.currentDir
  let here := routeOf folder.toString
  let entries ← entriesBelow depth ⟨folder, "."⟩ here
  let w := surroundings (← readEnvironment) here entries
  let session := Session.run w (words.map Text.ofString)
  carryOver w.disk session.disk
  IO.print (Text.toString (session.log.output w.environment.isVerbose))
  IO.eprint (Text.toString session.errors)
  match session.exit with
  | .status n => return n.toUInt32
  | .breakdown b =>
    IO.eprintln (Text.toString b.message)
    return 1
