import GalleryScan.Cache.Key
import GalleryScan.Gallery.Record
import GalleryScan.Log

/-!
# Cached entries

The cache keeps every item seen for a user under the key of its id, in the order in which the keys
first came. A later item with a known key takes the place of the earlier one. An item without an
address is no record but is kept as it is.
-/

set_option autoImplicit false

namespace GalleryScan

/-- What the cache keeps of one image. -/
inductive CacheEntry where
  | record (r : Record)
  | bare (members : List (Text × Json))

namespace CacheEntry

def raw : CacheEntry → List (Text × Json)
  | record r => r.raw
  | bare members => members

/-- The record that the entry is, if it is one. -/
def record? : CacheEntry → Option Record
  | record r => some r
  | bare _ => none

end CacheEntry

/-- Entries by key, in order. -/
abbrev Entries := List (Key × CacheEntry)

namespace Entries

/-- The entries after one is set: a new key goes last, a known one keeps its place. -/
def set (k : Key) (e : CacheEntry) : Entries → Entries
  | [] => [(k, e)]
  | (l, f) :: es => if l = k then (l, e) :: es else (l, f) :: set k e es

/-- The entries after a batch of records, which ends at one whose id is no key. -/
def insertAll (es : Entries) : List Record → Entries × Except KeyFault Unit
  | [] => (es, .ok ())
  | r :: rs =>
    match Key.of? r.id with
    | .ok k => insertAll (es.set k (.record r)) rs
    | .error fault => (es, .error fault)

def records (es : Entries) : List Record := es.filterMap fun (_, e) => e.record?

/-- The objects that the entries were made from, as one value. -/
def document (es : Entries) : Json := .array (es.map fun (_, e) => .object e.raw)

/-! ## Reading entries -/

/-- An item of the cache file with an id: its entry, and what there is to tell about it. -/
def entryOf (members : List (Text × Json)) : Log × CacheEntry :=
  match Record.ofMembers? members with
  | some r => ([], .record r)
  | none =>
    ([.detail ("Keeping cache entry " ++ ((Json.object members).get "id").plain
        ++ " without a url as-is")],
      .bare members)

/-- The report about an item without an id. -/
def dropped (item : Json) : Event :=
  .line ("[~] Dropping cache entry without an id: " ++ item.plain.take 120)

/-- The entries of the items of a cache file, laid over entries read before. -/
def readItems (es : Entries) : List Json → Log × Except KeyFault Entries
  | [] => ([], .ok es)
  | item :: items =>
    let id := item.get "id"
    match item, id.isNull with
    | .object members, false =>
      let (log, e) := entryOf members
      match Key.of? id with
      | .error fault => (log, .error fault)
      | .ok k =>
        let (log', result) := readItems (es.set k e) items
        (log ++ log', result)
    | _, _ =>
      let (log, result) := readItems es items
      (dropped item :: log, result)

end Entries

end GalleryScan
