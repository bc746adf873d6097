import GalleryScan.Json.Value

/-!
# Settings in layers

A setting gets its value from the defaults, the settings file, the environment and the command
line, each laid over the ones before. A layer is a list of named values as it was read: names that
are no setting change nothing, a missing value leaves what is there, and of two values for one
setting the later one counts.
-/

set_option autoImplicit false

namespace GalleryScan

inductive Setting where
  | username
  | tags
  | excludeTags
  | nsfw
  | sort
  | limit
  | output
  | concurrency
  | quality
  | apiKey
  | offline
  | showProgress
  deriving DecidableEq

namespace Setting

/-- Every setting, in the order in which they are listed. -/
def all : List Setting :=
  [username, tags, excludeTags, nsfw, sort, limit, output, concurrency, quality, apiKey, offline,
    showProgress]

def key : Setting → Text
  | username => "username"
  | tags => "tags"
  | excludeTags => "exclude_tags"
  | nsfw => "nsfw"
  | sort => "sort"
  | limit => "limit"
  | output => "output"
  | concurrency => "concurrency"
  | quality => "quality"
  | apiKey => "api_key"
  | offline => "offline"
  | showProgress => "show_progress"

/-- The other name that two settings have. -/
def alias? : Setting → Option Text
  | excludeTags => some "excludeTags"
  | apiKey => some "apiKey"
  | _ => none

def ofKey? (name : Text) : Option Setting := all.find? fun s => s.key = name || s.alias? = some name

end Setting

/-- A value for each setting. -/
abbrev Settings := Setting → Json

/-- Named values as they were read. -/
abbrev Layer := List (Text × Json)

namespace Settings

def defaults : Settings
  | .username => .text ""
  | .tags => .text ""
  | .excludeTags => .text ""
  | .nsfw => .text "X"
  | .sort => .text "Newest"
  | .limit => .int 10
  | .output => .text "downloads"
  | .concurrency => .int 5
  | .quality => .text "HD"
  | .apiKey => .null
  | .offline => .bool false
  | .showProgress => .bool true

def set (s : Settings) (setting : Setting) (value : Json) : Settings :=
  fun other => if other = setting then value else s other

def take (s : Settings) (name : Text) (value : Json) : Settings :=
  match Setting.ofKey? name with
  | some setting => if value.isNull then s else s.set setting value
  | none => s

/-- The settings under a layer. -/
def under (s : Settings) (layer : Layer) : Settings :=
  layer.foldl (fun s (name, value) => s.take name value) s

end Settings

end GalleryScan
