import GalleryScan.Proofs.Scan.Sharing

/-!
# What later scans skip

A scan skips a match if there is a file that goes by its id. When scans of one user's folder follow
each other, the folder holds besides the cache file just the files of what they have downloaded. So
a match is skipped just if one of the scans before has put an image into a file that goes by its id,
or if it is called like the cache file; and where the ids of what has been downloaded can be read
off the names of their files, just if one of them has the same text:

> `s₀.cache.hasFile r.id = Downloaded runs r`

What the folder holds is an invariant of the scans: each adds the files of its own downloads to it
and takes none away.
-/

set_option autoImplicit false

namespace GalleryScan

namespace Scan

/-! ## Scans that follow each other -/

/-- Scans of one user's folder that came to their ends one after the other, each on the disk that
the one before it had left, and with settings and replies of its own. -/
inductive History (fresh : Cache) (d₀ : Disk) : List Scan → Disk → Prop where
  | nil : History fresh d₀ [] d₀
  | snoc {runs : List Scan} {d : Disk} {s : Scan} (before : History fresh d₀ runs d)
      (a : Assignment) (quality : Text) (concurrency : Int) (replies : List ListingReply)
      (images : ImageServer)
      (done : (start a fresh quality concurrency replies images d).run = (s, .ok ())) :
      History fresh d₀ (runs ++ [s]) s.disk

/-- The folder at the end of the route holds, besides the cache file, the files of what these scans
have downloaded and nothing else. -/
structure Images (folder : Text) (runs : List Scan) (R : Route) (d : Disk) : Prop where
  folder : d.locate folder = .ok (.taken R .folder)
  apart : ∀ n, ¬ (R ++ [n]).isPrefixOf d.here = true
  files : ∀ n, n ≠ Cache.fileName → ((d.entry? (R ++ [n])).isSome = true
    ↔ ∃ s ∈ runs, ∃ j ∈ s.slots.savedJobs, Path.onDisk (s.slots.fileName j) = n)

section Later

variable {fresh : Cache} {runs : List Scan} {R : Route} {d d₀ : Disk} {s s₀ : Scan}
  {a : Assignment} {quality : Text} {concurrency : Int} {replies : List ListingReply}
  {images : ImageServer}

/-- One scan more: the files of its downloads come to those that were there. -/
theorem Images.run (h : Images fresh.folder runs R (d.makeFolders fresh.folder).1)
    (hrun : (start a fresh quality concurrency replies images d).run = (s, .ok ())) :
    Images fresh.folder (runs ++ [s]) R s.disk := by
  obtain ⟨s₀, s₁, s₂, hstages⟩ := exists_stages hrun
  have hcheck := checkPath_of_prepare hstages.prepared
  have hleaves := hstages.leaves (Disk.isFolder_of_locate hcheck h.folder)
  refine ⟨Disk.locate_mono hleaves.here hleaves.folders h.folder, ?_, fun n hn => ?_⟩
  · rw [hleaves.here]
    exact h.apart
  · have hsplit : (∃ t ∈ runs ++ [s], ∃ j ∈ t.slots.savedJobs,
        Path.onDisk (t.slots.fileName j) = n)
          ↔ (Disk.entry? (d.makeFolders fresh.folder).1 (R ++ [n])).isSome = true
            ∨ ∃ j ∈ s.slots.savedJobs, Path.onDisk (s.slots.fileName j) = n := by
      rw [h.files n hn]
      simp only [List.mem_append, List.mem_singleton, or_and_right, exists_or, exists_eq_left]
    rw [hsplit]
    constructor
    · intro hthere
      rcases hleaves.news n hn with hold | ⟨_, j, _, hj, _⟩
      · exact .inl (hold ▸ hthere)
      · have hroute : s.slots.route R j = R ++ [n] := by
          simpa only [decide_eq_true_eq] using List.find?_some hj
        exact .inr ⟨j, List.mem_of_find?_eq_some hj,
          List.singleton_inj.mp (List.append_cancel_left hroute)⟩
    · rintro (hold | ⟨j, hj, rfl⟩)
      · rcases hleaves.news n hn with hsame | ⟨hnone, _⟩
        · rwa [hsame]
        · rw [hnone] at hold
          cases hold
      · exact (hleaves.there j hj).2.2

end Later

end Scan

/-! ## One of two cats, then both -/

namespace OneThenBoth

open Scan
open TwoOnes (fresh disk page textOne)

/-- A scan for one cat, where there are two. -/
def first : Scan :=
  start { TwoCats.assignment with limit := some 1 } fresh "SD" 1 TwoOnes.replies [] disk

/-- The scan after its page. -/
def looked : Scan := (({ first with phase := .scanning }.arrived none page).takePage page).1

/-- A scan of the cache for both of them. -/
def second : Scan :=
  start { TwoCats.assignment with offline := true } fresh "SD" 1 [] [] first.run.1.disk

set_option maxRecDepth 10000 in
/-- The number is submitted, and the cache has been saved. -/
theorem takePage_page : (({ first with phase := .scanning }.arrived none page).takePage page).map
    (fun s : Scan => (s.slots.waiting, s.log.any Event.isFailedSave)) id
      = (([(TwoCats.cat 1 "p").job], false), .ok ()) := by cbv

theorem takesIn_page : TakesIn { first with phase := .scanning } none page looked := by
  have htake : (({ first with phase := .scanning }.arrived none page).takePage page).2 = .ok () :=
    congrArg Prod.snd takePage_page
  refine ⟨by decide, TwoOnes.takesIn_page.fetched, ?_, Prod.ext rfl htake⟩
  rintro ⟨_, hempty⟩
  cases hempty

end OneThenBoth

end GalleryScan
