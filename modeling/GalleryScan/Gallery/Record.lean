import GalleryScan.Json.Value

/-!
# Image records

An item of a listing is usable when it is an object with an id and an address. The whole object is
kept beside what is read from it, for that is what the cache stores.
-/

set_option autoImplicit false

namespace GalleryScan

structure Record where
  id : Json
  url : Text
  prompt : Option Text
  raw : List (Text × Json)

inductive ItemFault where
  | noObject (item : Json)
  | incomplete (item : Json)

def ItemFault.message : ItemFault → Text
  | noObject item => "Image item is not an object: " ++ item.shown
  | incomplete item => "Image item missing id/url: " ++ item.shown

namespace Record

/-- The prompt that an item carries among the data about the image. -/
def promptOf (members : List (Text × Json)) : Option Text :=
  match (Json.object members).get "meta" |>.get "prompt" with
  | .null => none
  | prompt => some prompt.plain

def ofMembers? (members : List (Text × Json)) : Option Record :=
  let id := (Json.object members).get "id"
  let url := (Json.object members).get "url"
  if id.isNull || !url.isTruthy then none
  else some ⟨id, url.plain, promptOf members, members⟩

def ofJson? (item : Json) : Except ItemFault Record :=
  match item with
  | .object members =>
    match ofMembers? members with
    | some r => .ok r
    | none => .error (.incomplete item)
  | _ => .error (.noObject item)

end Record

end GalleryScan
