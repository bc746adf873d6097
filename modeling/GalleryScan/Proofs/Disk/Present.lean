import GalleryScan.Proofs.Disk.Folder

/-!
# Folders that are there already

Where a path leads somewhere, so do the paths to all folders around it. So of a folder that is there
none has to be made, neither the folder itself nor one around it, and the disk stays as it is:

> `d.Reaches p → d.hasFolder p → d.makeFolders p = (d, .ok ())`
-/

set_option autoImplicit false

namespace GalleryScan

/-! ## Paths without their ends -/

namespace Text

theorem trimEnd_append (out : CodePoint → Bool) (p : Text) :
    ∃ t, p = trimEnd out p ++ t ∧ ∀ c ∈ t, out c = true := by
  refine ⟨(p.reverse.takeWhile out).reverse, ?_, ?_⟩
  · rw [trimEnd, ← List.reverse_append, List.takeWhile_append_dropWhile, List.reverse_reverse]
  · intro c hc
    exact List.all_eq_true.mp List.all_takeWhile c (List.mem_reverse.mp hc)

end Text

namespace Path

/-- The first text ends where a slash is, or where both end. -/
def IsCut (q t : Text) : Prop := t = [] ∨ t.head? = some slash ∨ q.getLast? = some slash

theorem withoutEnd_append (p : Text) : ∃ t, p = withoutEnd p ++ t ∧ IsCut (withoutEnd p) t := by
  rw [withoutEnd]
  split
  · exact ⟨[], (List.append_nil p).symm, .inl rfl⟩
  · obtain ⟨t, hp, ht⟩ := Text.trimEnd_append (· = slash) p
    refine ⟨t, hp, ?_⟩
    cases t with
    | nil => exact .inl rfl
    | cons c t =>
      have hc : c = slash := by simpa using ht c (List.mem_cons_self ..)
      exact .inr (.inl (by rw [hc]; rfl))

theorem withoutEnd_ne_nil {p : Text} (h : p ≠ []) : withoutEnd p ≠ [] := by
  rw [withoutEnd]
  split
  · exact h
  · rename_i hslash
    intro hnil
    obtain ⟨t, hp, ht⟩ := Text.trimEnd_append (· = slash) p
    rw [hnil, List.nil_append] at hp
    exact hslash (hp ▸ List.all_eq_true.mpr ht)

/-- What stands before the last name is empty or ends in a slash. -/
theorem exists_front (p : Text) : ∃ q t, p = q ++ t ∧ parent p = withoutEnd q
    ∧ (q = [] ∨ q.getLast? = some slash) := by
  obtain ⟨q, t, hp, ht, hq⟩ : ∃ q t, p = q ++ t
      ∧ t.length = (p.reverse.takeWhile (· ≠ slash)).length
      ∧ (q = [] ∨ q.getLast? = some slash) := by
    refine ⟨(p.reverse.dropWhile (· ≠ slash)).reverse, (p.reverse.takeWhile (· ≠ slash)).reverse,
      ?_, List.length_reverse, ?_⟩
    · rw [← List.reverse_append, List.takeWhile_append_dropWhile, List.reverse_reverse]
    · rw [List.getLast?_reverse]
      cases hrest : p.reverse.dropWhile (· ≠ slash) with
      | nil => exact .inl rfl
      | cons c cs =>
        have hc := List.head?_dropWhile_not (· ≠ slash) p.reverse
        rw [hrest] at hc
        exact .inr (by simpa using hc)
  refine ⟨q, t, hp, ?_, hq⟩
  rw [parent, ← ht, hp, List.length_append, Nat.add_sub_cancel, List.take_left]

end Path

namespace Disk

variable {d : Disk} {p q t : Text} {R S : Route} {e e' : Entry}

/-- Names that lead to an entry have led to one before the last of them. -/
theorem follow_front {ns ms : List Text} (h : d.follow R e (ns ++ ms) = .ok (.taken S e')) :
    ∃ T f, d.follow R e ns = .ok (.taken T f) ∧ d.follow T f ms = .ok (.taken S e') := by
  induction ns generalizing R e with
  | nil => exact ⟨R, e, rfl, h⟩
  | cons n ns ih =>
    obtain ⟨rfl, T, f, hpass, hrest⟩ := passes_of_follow h
    obtain ⟨T', f', hfront, hback⟩ := ih hrest
    exact ⟨T', f', (follow_of_passes hpass ns).trans hfront, hback⟩

/-- The path leads to an entry. -/
structure Reaches (d : Disk) (p : Text) : Prop where
  nonempty : p ≠ []
  check : checkPath p = .ok ()
  short : isTooLong p = false
  taken : ∃ T f, d.follow (d.base p) .folder (Path.names p) = .ok (.taken T f)

theorem Reaches.locate (h : d.Reaches p) : ∃ T f, d.locate p = .ok (.taken T f) := by
  rw [locate_of_short h.nonempty h.short]
  exact h.taken

theorem Reaches.hasEntry (h : d.Reaches p) : d.hasEntry p = true := by
  obtain ⟨T, f, hlocate⟩ := h.locate
  rw [Disk.hasEntry, Disk.at?, h.check, hlocate]
  rfl

/-- A path can be cut off at a slash. -/
theorem Reaches.cut (h : d.Reaches (q ++ t)) (hq : q ≠ []) (hcut : Path.IsCut q t) :
    d.Reaches q := by
  have hbase : d.base (q ++ t) = d.base q := by
    rw [base, base, Path.isAbsolute, Path.isAbsolute, List.head?_append, List.head?_eq_some_head hq]
    rfl
  obtain ⟨T, f, htaken⟩ := h.taken
  rw [hbase] at htaken
  refine ⟨hq, checkPath_of_append h.check, ?_, ?_⟩
  · have hshort := h.short
    rw [isTooLong, decide_eq_false_iff_not, Path.bytes, List.flatMap_append, List.length_append]
      at hshort
    rw [isTooLong, decide_eq_false_iff_not, Path.bytes]
    omega
  · rcases hcut with rfl | hslash | hslash
    · rw [List.append_nil] at htaken
      exact ⟨T, f, htaken⟩
    · obtain ⟨t, rfl⟩ := List.head?_eq_some_iff.mp hslash
      rw [Path.names, Text.splitOn_append_separator] at htaken
      obtain ⟨T', f', hfront, _⟩ := follow_front htaken
      exact ⟨T', f', hfront⟩
    · -- Behind the slash there is a name, so what is before it is a folder.
      obtain ⟨q, rfl⟩ := List.getLast?_eq_some_iff.mp hslash
      rw [List.append_assoc, List.singleton_append, Path.names, Text.splitOn_append_separator]
        at htaken
      obtain ⟨T', f', hfront, hback⟩ := follow_front htaken
      obtain ⟨n, ns, hnames⟩ := List.exists_cons_of_ne_nil (Text.splitOn_ne_nil Path.slash t)
      rw [hnames] at hback
      obtain ⟨rfl, _⟩ := passes_of_follow hback
      refine ⟨T', .folder, ?_⟩
      rw [Path.names, Text.splitOn_append_separator, follow_append hfront]
      rfl

theorem Reaches.withoutEnd (h : d.Reaches p) : d.Reaches (Path.withoutEnd p) := by
  obtain ⟨t, hp, hcut⟩ := Path.withoutEnd_append p
  have hreaches := h
  rw [hp] at hreaches
  exact hreaches.cut (Path.withoutEnd_ne_nil h.nonempty) hcut

theorem Reaches.parent (h : d.Reaches p) (hparent : Path.parent p ≠ []) :
    d.Reaches (Path.parent p) := by
  obtain ⟨q, t, rfl, hq, hend⟩ := Path.exists_front p
  rw [hq] at hparent ⊢
  have hne : q ≠ [] := by
    rintro rfl
    exact hparent rfl
  exact (h.cut hne (.inr (.inr (hend.resolve_left hne)))).withoutEnd

/-- The folder around a path is there if there is one. -/
theorem Reaches.around (h : d.Reaches p) (houter : (around p).1 ≠ []) :
    d.hasEntry (around p).1 = true := by
  rw [Disk.around] at houter ⊢
  split at houter
  · rename_i hlast
    rw [if_pos hlast]
    have hparent : Path.parent p ≠ [] := by
      intro hnil
      dsimp only at houter
      rw [hnil] at houter
      exact houter rfl
    exact ((h.parent hparent).parent houter).hasEntry
  · rename_i hlast
    rw [if_neg hlast]
    exact (h.parent houter).hasEntry

/-- A folder without a path cannot be made. -/
theorem makeFolders_nil (d : Disk) :
    d.makeFolders [] = (d, .error (.refused .missing [] none)) := by
  have hmake : d.makeFolder [] = .error (.refused .missing [] none) := rfl
  have hfolder : d.hasFolder [] = false := rfl
  rw [makeFolders]
  dsimp only
  rw [dif_neg fun h => h.1 rfl, makeFolders.makeLast, hmake]
  dsimp only
  rw [hfolder, if_neg (by decide)]

/-- Nothing is made of a folder that is there. -/
theorem makeFolders_of_hasFolder (h : d.Reaches p) (hfolder : d.hasFolder p = true) :
    d.makeFolders p = (d, .ok ()) := by
  have hlast : makeFolders.makeLast p d = (d, .ok ()) := by
    obtain ⟨T, f, hlocate⟩ := h.withoutEnd.locate
    have hmake : d.makeFolder p = .error (.refused .present p none) := by
      rw [makeFolder, h.check]
      dsimp only [bind, Except.bind]
      rw [h.short, if_neg (by decide), hlocate]
    rw [makeFolders.makeLast, hmake]
    dsimp only
    rw [hfolder]
    rfl
  rw [makeFolders]
  dsimp only
  split
  · rename_i hmissing
    rw [h.around hmissing.1] at hmissing
    exact absurd hmissing.2.2.1 (by decide)
  · exact hlast

theorem makeFolders_of_locate (hcheck : checkPath p = .ok ())
    (h : d.locate p = .ok (.taken R .folder)) : d.makeFolders p = (d, .ok ()) := by
  obtain ⟨hp, hshort, hfollow⟩ := follow_of_locate h
  refine makeFolders_of_hasFolder ⟨hp, hcheck, hshort, R, .folder, hfollow⟩ ?_
  rw [hasFolder, Disk.at?, hcheck, h]
  rfl

/-- The path of a file that is read leads there. -/
theorem leads_of_read {n : Text} {content : Bytes} (hn : Path.IsName n)
    (h : d.read (Path.join p n) = .ok content) :
    ∃ R, d.Leads p n R ∧ checkPath (Path.join p n) = .ok () := by
  obtain ⟨S, hcheck, hlocate⟩ := read_eq_ok h
  obtain ⟨R, hleads, _⟩ := leads_of_locate hn hlocate
  exact ⟨R, hleads, hcheck⟩

/-- The folder of a path that leads somewhere is there. -/
theorem Leads.makeFolders {n : Text} (h : d.Leads p n R)
    (hcheck : checkPath (Path.join p n) = .ok ()) (hp : p ≠ []) :
    d.makeFolders p = (d, .ok ()) := by
  refine makeFolders_of_locate (checkPath_of_join h.name hcheck) (R := R) ?_
  rw [locate_of_short hp h.short_folder, h.follow_names hp]

end Disk

end GalleryScan
