import GalleryScan.Proofs.Disk.Changing

/-!
# Files in a folder that is there

Where a path leads to a folder, every name that fits leads into it, and as long as the folder stays
it leads to the same place:

> `d.IsFolder p R → Path.Fits p n → d.Leads p n R`

A name that is too long, by itself or with the path before it, leads nowhere on any disk: there is
nothing under it, and nothing can be put there.
-/

set_option autoImplicit false

namespace GalleryScan

/-- The name is not too long, neither by itself nor in the folder's path. -/
def Path.Fits (p n : Text) : Prop :=
  Disk.isTooLong (Path.join p n) = false ∧ ¬ Disk.nameLimit < (Path.bytes n).length

instance (p n : Text) : Decidable (Path.Fits p n) := by
  unfold Path.Fits
  infer_instance

namespace Disk

/-- The path leads to the folder at the end of the route. -/
structure IsFolder (d : Disk) (p : Text) (R : Route) : Prop where
  nonempty : p ≠ []
  check : checkPath p = .ok ()
  folder : d.follow (d.base p) .folder (Path.folderNames p) = .ok (.taken R .folder)

variable {d d' : Disk} {p n : Text} {R : Route}

/-- An empty name at the end leads no further. -/
theorem follow_of_empty {ns : List Text} {e : Entry} {S : Route}
    (h : d.follow R e (ns ++ [[]]) = .ok (.taken S .folder)) :
    d.follow R e ns = .ok (.taken S .folder) := by
  induction ns generalizing R e with
  | nil =>
    obtain ⟨rfl, _⟩ := passes_of_follow h
    exact h
  | cons m ns ih =>
    obtain ⟨rfl, T, t, hpass, hrest⟩ := passes_of_follow h
    rw [follow_of_passes hpass]
    exact ih hrest

theorem follow_of_locate {s : Spot} (h : d.locate p = .ok s) :
    p ≠ [] ∧ isTooLong p = false ∧ d.follow (d.base p) .folder (Path.names p) = .ok s := by
  have hp : p ≠ [] := by
    rintro rfl
    cases h
  have hshort : isTooLong p = false := by
    rw [Disk.locate, if_neg hp] at h
    split at h
    · cases h
    · rename_i hshort
      exact Bool.eq_false_iff.mpr hshort
  exact ⟨hp, hshort, (locate_of_short hp hshort).symm.trans h⟩

theorem isFolder_of_locate (hcheck : checkPath p = .ok ())
    (h : d.locate p = .ok (.taken R .folder)) : d.IsFolder p R := by
  obtain ⟨hp, _, hfollow⟩ := follow_of_locate h
  refine ⟨hp, hcheck, ?_⟩
  rw [Path.folderNames, if_neg hp]
  split
  · rename_i hend
    obtain ⟨q, rfl⟩ := List.getLast?_eq_some_iff.mp hend
    have hnames : Path.names (q ++ [Path.slash]) = Path.names q ++ [[]] :=
      Text.splitOn_append_separator Path.slash q []
    rw [hnames] at hfollow
    rw [hnames, List.dropLast_concat]
    exact follow_of_empty hfollow
  · exact hfollow

theorem exists_isFolder (h : d.hasFolder p = true) : ∃ R, d.IsFolder p R := by
  rw [hasFolder, decide_eq_true_eq, Disk.at?] at h
  split at h
  · rename_i r e hcheck hlocate
    cases h
    exact ⟨r, isFolder_of_locate hcheck hlocate⟩
  · cases h

/-- As long as the folders stay, the path leads to the same one. -/
theorem locate_mono (hhere : d'.here = d.here)
    (hfolders : ∀ S, d.entry? S = some .folder → d'.entry? S = some .folder)
    (h : d.locate p = .ok (.taken R .folder)) : d'.locate p = .ok (.taken R .folder) := by
  obtain ⟨hp, hshort, hfollow⟩ := follow_of_locate h
  rw [locate_of_short hp hshort, base, hhere]
  exact follow_mono hfolders hfollow

theorem IsFolder.mono (h : d.IsFolder p R) (hhere : d'.here = d.here)
    (hfolders : ∀ S, d.entry? S = some .folder → d'.entry? S = some .folder) :
    d'.IsFolder p R := by
  refine ⟨h.nonempty, h.check, ?_⟩
  rw [base, hhere]
  exact follow_mono hfolders h.folder

theorem IsFolder.leads (h : d.IsFolder p R) (hn : Path.IsName n) (hfits : Path.Fits p n) :
    d.Leads p n R := ⟨hn, hfits.1, hfits.2, h.folder⟩

/-- A name with a form in bytes makes a path with one. -/
theorem checkPath_join (h : checkPath p = .ok ()) (hn : n.isEncodable = true)
    (hnull : CodePoint.scalar '\x00' ∉ n) : checkPath (Path.join p n) = .ok () := by
  rw [checkPath_eq_ok_iff] at h ⊢
  rw [Text.isEncodable, List.all_eq_true] at hn
  have hcases : ∀ c ∈ Path.join p n, c ∈ p ∨ c = Path.slash ∨ c ∈ n := by
    intro c hc
    rw [Path.join] at hc
    split at hc
    · exact .inr (.inr hc)
    split at hc
    · rcases List.mem_append.mp hc with hc | hc
      · exact .inl hc
      · exact .inr (.inr hc)
    · rcases List.mem_append.mp hc with hc | hc
      · exact .inl hc
      · exact .inr (List.mem_cons.mp hc)
  constructor
  · intro c hc
    rcases hcases c hc with hc | rfl | hc
    · exact h.1 c hc
    · exact .inl rfl
    · exact .inl (hn c hc)
  · intro hc
    rcases hcases _ hc with hc | hc | hc
    · exact h.2 hc
    · revert hc
      decide
    · exact hnull hc

/-! ## Names that do not fit -/

theorem IsFolder.locate_unfit (h : d.IsFolder p R) (hn : Path.IsName n)
    (hfits : ¬ Path.Fits p n) : d.locate (Path.join p n) = .error .tooLong := by
  cases hshort : isTooLong (Path.join p n) with
  | true => rw [Disk.locate, if_neg (join_ne_nil hn), hshort, if_pos rfl]
  | false =>
    have hlong : nameLimit < (Path.bytes n).length := Decidable.not_not.mp fun h' =>
      hfits ⟨hshort, h'⟩
    rw [locate_join hn hshort, h.folder, enter, if_pos hlong]

theorem at?_of_locate {reason : Refusal} (h : d.locate p = .error reason) : d.at? p = none := by
  rw [Disk.at?, h]
  cases checkPath p <;> rfl

theorem find_of_locate {reason : Refusal} (hcheck : checkPath p = .ok ())
    (h : d.locate p = .error reason) : d.find p = .error (.refused reason p none) := by
  rw [Disk.find, hcheck]
  dsimp only [bind, Except.bind]
  rw [h]

theorem openFile_of_locate {reason : Refusal} (hcheck : checkPath p = .ok ())
    (h : d.locate p = .error reason) : d.openFile p = .error (.refused reason p none) := by
  rw [Disk.openFile, find_of_locate hcheck h]
  rfl

theorem removeFile_of_locate {reason : Refusal} (hcheck : checkPath p = .ok ())
    (h : d.locate p = .error reason) : d.removeFile p = .error (.refused reason p none) := by
  rw [Disk.removeFile, find_of_locate hcheck h]
  rfl

end Disk

end GalleryScan
