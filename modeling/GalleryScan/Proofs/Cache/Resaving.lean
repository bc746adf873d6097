import GalleryScan.Proofs.Cache.Saving
import GalleryScan.Proofs.Download.Beside

/-!
# Saving again

A save that fails leaves the disk as it was, and one that succeeds can be made again. Whether it
succeeds is up to folders, the cache file and the names of drafts, and of these the downloads of
images touch none. So the same save once more, before the downloads or behind them, changes nothing:

> `s.disk = (c.save d).2.1 → Disk.Same s.drain.disk (c.save s.drain.disk).2.1`
-/

set_option autoImplicit false

namespace GalleryScan

namespace Cache

variable {c : Cache} {d d' : Disk} {R S : Route} {content : Bytes}

/-! ## What a save does -/

theorem Savable.save (h : c.Savable d content R S) :
    (c.save d).2 = (d.put (S ++ [fileName]) (.file content), true) := by
  rw [Cache.save, h.write]

/-- Nothing stays of a save that has failed. -/
theorem save_cases (c : Cache) (d : Disk) :
    (c.save d).2 = (d, false) ∨ ∃ content R S, c.Savable d content R S := by
  rcases c.write_cases d with ⟨fault, hfails⟩ | hsavable
  · rw [save, hfails]
    exact .inl rfl
  · exact .inr hsavable

/-- The disks are the same for who saves: in their folders, in all files that go by the name of the
cache file, and in the names of drafts. -/
structure Alike (d d' : Disk) : Prop where
  here : d'.here = d.here
  folders : ∀ T, d'.entry? T = some .folder ↔ d.entry? T = some .folder
  cached : ∀ T, d'.entry? (T ++ [fileName]) = d.entry? (T ++ [fileName])
  drafts : ∀ T k, draftName k ∈ d'.namesIn T ↔ draftName k ∈ d.namesIn T

theorem Alike.refl (d : Disk) : Alike d d :=
  ⟨rfl, fun _ => Iff.rfl, fun _ => rfl, fun _ _ => Iff.rfl⟩

theorem Alike.symm (h : Alike d d') : Alike d' d :=
  ⟨h.here.symm, fun T => (h.folders T).symm, fun T => (h.cached T).symm,
    fun T k => (h.drafts T k).symm⟩

theorem Alike.leads {p n : Text} (h : Alike d d') (hleads : d.Leads p n R) : d'.Leads p n R :=
  hleads.mono h.here fun T hT => (h.folders T).mpr hT

variable {d₀ : Disk} {m : Text}

/-- Of the names in a folder, putting a file changes at most its own. -/
theorem mem_namesIn_put {n : Text} (hn : n ≠ m) (T : Route) (e : Entry) :
    n ∈ (d.put (R ++ [m]) e).namesIn T ↔ n ∈ d.namesIn T := by
  rcases namesIn_put d R T m e with hnames | hnames
  · rw [hnames]
  · rw [hnames, List.mem_append, List.mem_singleton, or_iff_left hn]

theorem mem_namesIn_erase {n : Text} (hn : n ≠ m) (T : Route) :
    n ∈ (d.erase (R ++ [m])).namesIn T ↔ n ∈ d.namesIn T := by
  rw [mem_namesIn_iff, mem_namesIn_iff]
  simp only [Disk.erase, List.mem_filter, decide_eq_true_eq]
  constructor
  · rintro ⟨e, he, _⟩
    exact ⟨e, he⟩
  · rintro ⟨e, he⟩
    refine ⟨e, he, ?_⟩
    intro hroute
    exact hn (List.singleton_inj.mp (List.append_inj' hroute rfl).2)

theorem Alike.put (h : Alike d₀ d) (hcache : m ≠ fileName) (hdraft : ∀ k, m ≠ draftName k)
    (hfolder : d.entry? (R ++ [m]) ≠ some .folder) (content : Bytes) :
    Alike d₀ (d.put (R ++ [m]) (.file content)) := by
  refine ⟨h.here, ?_, ?_, ?_⟩
  · intro T
    rw [← h.folders T]
    by_cases hT : T = R ++ [m]
    · rw [hT, Disk.entry?_put_self hfolder]
      exact ⟨nofun, fun he => absurd he hfolder⟩
    · rw [Disk.entry?_put_other hT]
  · intro T
    rw [Disk.entry?_put_other, h.cached T]
    intro hT
    exact hcache (List.singleton_inj.mp (List.append_inj' hT rfl).2).symm
  · intro T k
    rw [mem_namesIn_put (hdraft k).symm, h.drafts]

theorem Alike.erase (h : Alike d₀ d) (hcache : m ≠ fileName) (hdraft : ∀ k, m ≠ draftName k)
    (hfolder : d.entry? (R ++ [m]) ≠ some .folder) : Alike d₀ (d.erase (R ++ [m])) := by
  refine ⟨h.here, ?_, ?_, ?_⟩
  · intro T
    rw [← h.folders T]
    by_cases hT : T = R ++ [m]
    · rw [hT, Disk.entry?_erase_self hfolder]
      exact ⟨nofun, fun he => absurd he hfolder⟩
    · rw [Disk.entry?_erase_other hT]
  · intro T
    rw [Disk.entry?_erase_other, h.cached T]
    intro hT
    exact hcache (List.singleton_inj.mp (List.append_inj' hT rfl).2).symm
  · intro T k
    rw [mem_namesIn_erase (hdraft k).symm, h.drafts]

end Cache

end GalleryScan
