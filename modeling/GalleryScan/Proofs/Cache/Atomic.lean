import GalleryScan.Proofs.Cache.Resaving
import GalleryScan.Proofs.Cache.RoundTrip
import GalleryScan.Proofs.Json.Real

/-!
# Saves that are made as a whole

While a draft is written the disk is the old one with one file more, at a place where there was
nothing, and wherever the writing ends early that file is taken away. So a save that fails has done
nothing, and one that succeeds has changed the cache file and nothing else:

> `(c.save d).2.2 = false → (c.save d).2.1 = d`
> `(c.save d).2.2 = true → ∃ S, c.SavedAt S d (c.save d).2.1`
-/

set_option autoImplicit false

namespace GalleryScan

namespace Cache

variable {c : Cache} {d : Disk} {R S : Route} {content : Bytes}

/-! ## While a draft is there -/

/-- The disk with a draft on it, complete or not: at a place where there was nothing, and nothing
else is changed. With the draft discarded it is the disk from before. -/
structure Drafted (c : Cache) (d d₁ : Disk) : Prop where
  place : ∃ r, d.entry? r = none ∧ Disk.SameBut r d d₁
  discarded : discard d₁ (c.draftPath d) = d

theorem entry?_draft (h : d.Leads (c.draftFolder d) (c.draft d) R)
    (hcheck : Disk.checkPath (c.draftPath d) = .ok ())
    (hfree : d.entry? (R ++ [c.draft d]) ≠ some .folder) :
    d.entry? (R ++ [c.draft d]) = none := by
  have hnone : d.entries.lookup (R ++ [c.draft d]) = none := by
    rw [List.lookup_eq_none_iff]
    intro x hx
    rw [bne_iff_ne]
    exact fun heq => draft_notMem h hcheck x hx heq.symm
  rw [Disk.entry?, if_neg (Disk.not_isPrefixOf_here hfree), hnone]

/-- Whatever has been written of a draft when its writing ends early. -/
theorem drafted_writeFile {d₁ : Disk} (hopen : d.openFile (c.draftPath d) = .ok d₁)
    (written : Bytes) : c.Drafted d (d₁.writeFile (c.draftPath d) written) := by
  obtain ⟨hcheck, R, hleads, hfree, rfl⟩ := openFile_draft_eq_ok hopen
  rw [writeFile_draft hleads hfree]
  exact ⟨⟨_, entry?_draft hleads hcheck hfree, Disk.sameBut_put _ _ _⟩,
    discard_draft hleads hcheck hfree written⟩

/-! ## After a save -/

theorem mem_namesIn_put_iff {T : Route} {n m : Text} {e : Entry} :
    n ∈ (d.put (S ++ [m]) e).namesIn T ↔ n ∈ d.namesIn T ∨ T = S ∧ n = m := by
  have hroute : T ++ [n] = S ++ [m] ↔ T = S ∧ n = m :=
    ⟨fun h => ⟨List.append_inj_left' h rfl, List.singleton_inj.mp (List.append_inj_right' h rfl)⟩,
      fun ⟨hT, hn⟩ => by rw [hT, hn]⟩
  rw [mem_namesIn_iff, mem_namesIn_iff, ← hroute]
  unfold Disk.put
  dsimp only
  split
  · rename_i hany
    obtain ⟨x, hx, hxr⟩ := List.any_eq_true.mp hany
    have hxr : x.1 = S ++ [m] := of_decide_eq_true hxr
    constructor
    · rintro ⟨f, hf⟩
      obtain ⟨y, hy, hyf⟩ := List.mem_map.mp hf
      split at hyf
      · exact .inr (congrArg Prod.fst hyf).symm
      · exact .inl ⟨f, hyf ▸ hy⟩
    · intro h
      by_cases heq : T ++ [n] = S ++ [m]
      · exact ⟨e, List.mem_map.mpr ⟨x, hx, by rw [if_pos hxr, heq]⟩⟩
      · obtain ⟨f, hf⟩ := h.resolve_right heq
        exact ⟨f, List.mem_map.mpr ⟨_, hf, if_neg heq⟩⟩
  · simp only [List.mem_append, List.mem_singleton, Prod.mk.injEq, exists_or, exists_and_left,
      exists_eq, and_true]

/-- What a save has done: the cache file is one array of the raw objects of all entries, in their
order, every other place on the disk is as it was, and no name has come to any folder but the cache
file's own. The file is told by its bytes, and by the value that is read from it where the objects
are such as can be read at all, which those of a cache in use are. -/
structure SavedAt (c : Cache) (S : Route) (d d' : Disk) : Prop where
  leads : d'.Leads c.folder fileName S
  entry : d'.entry? (S ++ [fileName]) = some (.file (c.entries.document.written 0).bytes)
  document : c.entries.document.Proper →
    d'.document c.path = .ok (.array (c.entries.map fun x => .object x.2.raw))
  other : Disk.SameBut (S ++ [fileName]) d d'
  names : ∀ T n, n ∈ d'.namesIn T ↔ n ∈ d.namesIn T ∨ T = S ∧ n = fileName

theorem Savable.savedAt (h : c.Savable d content R S) :
    c.SavedAt S d (d.put (S ++ [fileName]) (.file content)) := by
  obtain ⟨hbytes, hcontent⟩ := encodePieces_eq_ok h.content
  have hwritten : content = (c.entries.document.written 0).bytes := hcontent
  refine ⟨h.again.file, ?_, ?_, Disk.sameBut_put _ _ _, fun T n => mem_namesIn_put_iff⟩
  · rw [Disk.entry?_put_self h.noFolder, hwritten]
  · intro hproper
    rw [Disk.document, h.read, hwritten]
    exact hproper.document (fun y _ => Json.readsBack y) hbytes

/-- A save succeeds where the draft's name leads to a free place and the cache file's to no folder,
and all texts have a form in bytes. -/
theorem save_eq_true_iff (c : Cache) (d : Disk) :
    (c.save d).2.2 = true ↔ ∃ content R S, c.Savable d content R S := by
  constructor
  · intro hsave
    rcases c.save_cases d with hfails | hsavable
    · rw [hfails] at hsave
      cases hsave
    · exact hsavable
  · rintro ⟨content, R, S, h⟩
    rw [h.save]

/-- Saving is done as a whole or not at all, and it is done where it can be. Up to the move of the
draft, an error may come at any time and leave any part of it; a save that is reported as failed
leaves the disk as it was, and one that succeeds changes the cache file alone. The cache in memory
is no part of what a save gives back, for it does not change. -/
theorem save_atomic (c : Cache) (d : Disk) :
    ((c.save d).2.2 = true ↔ ∃ content R S, c.Savable d content R S)
      ∧ (∀ d₁ written, d.openFile (c.draftPath d) = .ok d₁ →
          c.Drafted d (d₁.writeFile (c.draftPath d) written))
      ∧ ((c.save d).2.2 = false → (c.save d).2.1 = d)
      ∧ ((c.save d).2.2 = true → ∃ S, c.SavedAt S d (c.save d).2.1) := by
  refine ⟨save_eq_true_iff c d, fun d₁ written hopen => drafted_writeFile hopen written, ?_, ?_⟩
  · intro hsave
    rcases c.save_cases d with hfails | ⟨content, R, S, h⟩
    · rw [hfails]
    · rw [h.save] at hsave
      cases hsave
  · intro hsave
    obtain ⟨content, R, S, h⟩ := (save_eq_true_iff c d).mp hsave
    exact ⟨S, by rw [h.save]; exact h.savedAt⟩

end Cache

namespace TwoEntries

/-- The user's folder with a folder in the place of the cache file. -/
def occupied : Disk :=
  ⟨[], [(["out"], .folder), (["out", "ann"], .folder),
    (["out", "ann", "metadata.json"], .folder)]⟩

/-- At the cache of two entries, where it can be saved and where it cannot. -/
theorem save_atomic_both :
    ((cache.save disk).2.2 = true ∧ ∃ S, cache.SavedAt S disk (cache.save disk).2.1)
      ∧ (cache.save occupied).2.2 = false ∧ (cache.save occupied).2.1 = occupied := by
  have hfailed : (cache.save occupied).2.2 = false := by cbv
  exact ⟨⟨saved_cache, (Cache.save_atomic cache disk).2.2.2 saved_cache⟩,
    hfailed, (Cache.save_atomic cache occupied).2.2.1 hfailed⟩

end TwoEntries

end GalleryScan
