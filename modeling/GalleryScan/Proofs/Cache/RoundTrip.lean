import GalleryScan.Proofs.Cache.Saving
import GalleryScan.Proofs.Cache.Sound
import Mathlib

/-!
# What was saved is loaded again

A cache that loads, batches of records and saves have led to, saved without a failure, is the cache
that the same user's next run loads:

> `c.save d = (log, d', true) → ((ofUser output username).load d').2.1.entries = c.entries`

Its file holds the bytes of the written document. Reading them gives the document back, the document
gives the entries back, and the same entries are written as the same bytes.
-/

set_option autoImplicit false

namespace GalleryScan

namespace Cache

variable {c c' : Cache} {d : Disk} {content : Bytes} {R S : Route}

/-! ## The bytes of the file -/

/-- Pieces go to a file as their texts put together would. -/
theorem encodePieces_eq_ok {ps : List Text} {bs : Bytes} (h : encodePieces ps = .ok bs) :
    Text.isEncodable ps.flatten = true ∧ bs = Text.bytes ps.flatten := by
  induction ps generalizing bs with
  | nil =>
    cases h
    exact ⟨rfl, rfl⟩
  | cons p ps ih =>
    rw [encodePieces] at h
    cases hp : p.encode with
    | error fault =>
      rw [hp] at h
      cases h
    | ok b =>
      cases hps : encodePieces ps with
      | error fault =>
        rw [hp, hps] at h
        cases h
      | ok bs' =>
        rw [hp, hps] at h
        cases h
        obtain ⟨hpe, rfl⟩ := Text.encode_eq_ok_iff.mp hp
        obtain ⟨hpse, rfl⟩ := ih hps
        rw [Text.isEncodable] at hpe hpse ⊢
        rw [List.flatten_cons]
        refine ⟨?_, ?_⟩
        · rw [List.all_append, hpe, hpse]
          rfl
        · rw [Text.bytes, Text.bytes, Text.bytes, List.flatMap_append]

/-- The file of a save holds the document of the entries. -/
theorem Savable.document (h : c.Savable d content R S) (hsound : c.entries.Sound)
    (hreals : ∀ y, c.entries.document.HasReal y → Json.ReadsBack y) :
    content.document = .ok c.entries.document := by
  obtain ⟨hbytes, rfl⟩ := encodePieces_eq_ok h.content
  exact hsound.document_proper.document hreals hbytes

theorem Savable.read (h : c.Savable d content R S) :
    (d.put (S ++ [fileName]) (.file content)).read c.path = .ok content := by
  refine h.again.file.read h.filePath ?_
  rw [onDisk_fileName]
  exact Disk.entry?_put_self h.noFolder _

theorem Savable.hasEntry (h : c.Savable d content R S) :
    (d.put (S ++ [fileName]) (.file content)).hasEntry c.path = true := by
  rw [Disk.hasEntry, show c.path = Path.join c.folder fileName from rfl,
    h.again.file.at? h.filePath, onDisk_fileName, Disk.entry?_put_self h.noFolder]
  rfl

/-- What can be saved is told by the folder and the entries alone. -/
theorem Savable.same (h : c.Savable d content R S) (hfolder : c'.folder = c.folder)
    (hentries : c'.entries = c.entries) : c'.Savable d content R S := by
  cases c
  cases c'
  cases hfolder
  cases hentries
  exact ⟨h.draft, h.draftPath, h.free, h.file, h.filePath, h.noFolder, h.content⟩

/-! ## Loading -/

theorem load_of_document (hentry : d.hasEntry c.path = true) (hread : d.read c.path = .ok content)
    (hsound : c'.entries.Sound) (hdocument : content.document = .ok c'.entries.document) :
    ∃ log, c.load d = (log, { c with entries := c'.entries }, .ok ()) := by
  obtain ⟨log, hlog⟩ := hsound.readItems_document
  have hfile : d.document c.path = .ok c'.entries.document := by
    rw [Disk.document, hread]
    exact hdocument
  rw [Cache.load]
  dsimp only
  rw [hentry, hfile]
  dsimp only [Entries.document]
  rw [if_neg (by decide), hlog]
  exact ⟨_, rfl⟩

/-- Saved and loaded again, a cache has the entries that it had, and it can be saved once more,
which leaves the same bytes in its file. -/
theorem Reachable.reload_after_save {output username : Text} {d' : Disk} {log : Log}
    (h : Reachable output username c d)
    (hreals : ∀ y, c.entries.document.HasReal y → Json.ReadsBack y)
    (hsave : c.save d = (log, d', true)) :
    ∃ content log' c', d'.read c.path = .ok content
      ∧ (ofUser output username).load d' = (log', c', .ok ())
      ∧ c'.entries = c.entries ∧ c'.path = c.path
      ∧ ∃ log'' d'', c'.save d' = (log'', d'', true) ∧ d''.read c'.path = .ok content := by
  obtain ⟨hfolder, hsound⟩ := h.sound
  -- The save has put the written document where the path of the cache file leads.
  have hwrite : c.write d = (d', .ok ()) := by
    rw [Cache.save] at hsave
    split at hsave
    · rename_i hw
      cases hsave
      exact hw
    · cases hsave
  obtain ⟨content, R, S, hsavable⟩ := savable_of_write hwrite
  rw [hsavable.write] at hwrite
  cases hwrite
  have hpath : (ofUser output username).path = c.path :=
    congrArg (Path.join · fileName) hfolder.symm
  obtain ⟨log', hload⟩ := load_of_document (c := ofUser output username) (hpath ▸ hsavable.hasEntry)
    (hpath ▸ hsavable.read) hsound (hsavable.document hsound hreals)
  refine ⟨content, log', _, hsavable.read, hload, rfl, hpath, ?_⟩
  -- The loaded cache has the same folder and the same entries, so it is saved in the same way.
  have hsame : Savable { ofUser output username with entries := c.entries } d content R S :=
    hsavable.same hfolder.symm rfl
  refine ⟨[], _, ?_, hsame.read⟩
  rw [Cache.save, hsame.write_again]

end Cache

/-! ## Two entries -/

namespace TwoEntries

/-- A cache file with an image and an item without an address. -/
def stored : Text := "[\x7b\"id\":1,\"url\":\"u\"\x7d,\x7b\"id\":\"b\",\"score\":0.0\x7d]"

def disk : Disk :=
  ⟨[], [(["out"], .folder), (["out", "ann"], .folder),
    (["out", "ann", "metadata.json"], .file stored.bytes)]⟩

/-- The members of the item without an address. -/
def bare : List (Text × Json) := [("id", .text "b"), ("score", .real (.zero false))]

def entries : Entries :=
  [(.whole 1, .record ⟨.int 1, "u", none, [("id", .int 1), ("url", .text "u")]⟩),
    (.text "b", .bare bare)]

def cache : Cache := ⟨"out/ann", entries, []⟩

theorem load_stored : ((Cache.ofUser "out" "ann").load disk).2.1 = cache := by
  have hfolder : (Cache.ofUser "out" "ann").folder = "out/ann" := by decide +kernel
  have hpath : (Cache.ofUser "out" "ann").path = "out/ann/metadata.json" := by decide +kernel
  have hentry : disk.hasEntry "out/ann/metadata.json" = true := by cbv
  have hdocument : disk.document "out/ann/metadata.json"
      = .ok (.array (entries.map fun x => .object x.2.raw)) := by cbv
  have hread : (Entries.readItems [] (entries.map fun x => .object x.2.raw)).2 = .ok entries := by
    cbv
  rw [Cache.load, hpath, hentry, hdocument, if_neg (by decide)]
  dsimp only
  cases hitems : Entries.readItems [] (entries.map fun x => .object x.2.raw) with
  | mk log result =>
    rw [hitems] at hread
    cases hread
    exact congrArg (Cache.mk · entries []) hfolder

/-- The only number with a point is zero. -/
theorem readsBack_entries : ∀ y, entries.document.HasReal y → Json.ReadsBack y := by
  intro y hy
  cases hy with
  | item _ x mem inside =>
    rcases List.mem_cons.mp mem with rfl | mem
    · cases inside with
      | member _ m mem inside =>
        rcases List.mem_cons.mp mem with rfl | mem
        · cases inside
        · rw [List.mem_singleton.mp mem] at inside
          cases inside
    · rw [List.mem_singleton.mp mem] at inside
      cases inside with
      | member _ m mem inside =>
        rcases List.mem_cons.mp mem with rfl | mem
        · cases inside
        · rw [List.mem_singleton.mp mem] at inside
          cases inside
          unfold Json.ReadsBack
          cbv

theorem saved_cache : (cache.save disk).2.2 = true := by cbv

/-- At the cache of this file. -/
theorem reload_after_save_both : ∃ log d', cache.save disk = (log, d', true)
    ∧ ∃ content log' c', d'.read "out/ann/metadata.json" = .ok content
      ∧ (Cache.ofUser "out" "ann").load d' = (log', c', .ok ())
      ∧ c'.entries = entries ∧ c'.path = cache.path
      ∧ ∃ log'' d'', c'.save d' = (log'', d'', true) ∧ d''.read c'.path = .ok content := by
  have hreachable : Cache.Reachable "out" "ann" cache disk := by
    rw [← load_stored]
    exact .load _ _ (.fresh disk)
  have hsave : cache.save disk = ((cache.save disk).1, (cache.save disk).2.1, true) := by
    rw [← saved_cache]
  exact ⟨_, _, hsave, hreachable.reload_after_save readsBack_entries hsave⟩

end TwoEntries

end GalleryScan
