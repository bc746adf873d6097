import GalleryScan.Cache.Store
import GalleryScan.Proofs.Disk.Spelling
import GalleryScan.Proofs.Download.Touching
import GalleryScan.Proofs.Gallery.FileName

/-!
# What downloads leave alone

The file of an image never goes by the name of the cache file. So whatever images are downloaded,
under whichever names and with whatever ends, the cache file is there as it was before:

> `s.disk.AtName p Cache.fileName S e? → s.drain.disk.AtName p Cache.fileName S e?`
-/

set_option autoImplicit false

namespace GalleryScan

namespace Disk

/-- The path of a name leads to it in the folder at the end of the route, and this is there. -/
structure AtName (d : Disk) (p m : Text) (S : Route) (e? : Option Entry) : Prop where
  leads : d.Leads p m S
  entry : d.entry? (S ++ [Path.onDisk m]) = e?

variable {d : Disk} {p m n : Text} {S r : Route} {e? : Option Entry}

theorem AtName.put (h : d.AtName p m S e?) (hr : r ≠ S ++ [Path.onDisk m])
    (hfolder : d.entry? r ≠ some .folder) (e : Entry) : (d.put r e).AtName p m S e? where
  leads := h.leads.mono rfl fun _ hT => folder_put hfolder e hT
  entry := by rw [entry?_put_other (Ne.symm hr), h.entry]

theorem AtName.erase (h : d.AtName p m S e?) (hr : r ≠ S ++ [Path.onDisk m])
    (hfolder : d.entry? r ≠ some .folder) : (d.erase r).AtName p m S e? where
  leads := h.leads.mono rfl fun _ hT => folder_erase hfolder hT
  entry := by rw [entry?_erase_other (Ne.symm hr), h.entry]

theorem route_ne (hne : Path.onDisk n ≠ Path.onDisk m) :
    S ++ [Path.onDisk n] ≠ S ++ [Path.onDisk m] := fun h =>
  hne (List.singleton_inj.mp (List.append_cancel_left h))

/-- Two names in a folder lead to one route but for their ends. -/
theorem AtName.route_eq {R : Route} (h : d.AtName p m S e?) (hn : d.Leads p n R) : R = S := by
  have hfolder := hn.folder
  rw [h.leads.folder] at hfolder
  cases hfolder
  rfl

/-- What is done under another name leaves what is at this one. -/
theorem atName_spared (hn : Path.IsName n) (hne : Path.onDisk n ≠ Path.onDisk m) :
    Path.Spares (Path.join p n) (AtName · p m S e?) := by
  refine ⟨p, n, rfl, hn, ?_⟩
  intro d R h hleads hfolder
  obtain rfl := h.route_eq hleads
  exact ⟨fun content => h.put (route_ne hne) hfolder _, h.erase (route_ne hne) hfolder⟩

end Disk

/-! ## The cache file and the files of images -/

/-- In bytes the file of an image ends like one of the extensions. -/
theorem Record.bytes_fileName (quality : Text) (r : Record) : ∃ front,
    ∃ back ∈ [[110, 103], [98, 112], [101, 103]],
      Path.bytes (r.target quality).fileName = front ++ back := by
  have hends : ∀ e ∈ extensions, ∃ front, ∃ back ∈ [[110, 103], [98, 112], [101, 103]],
      Path.bytes e = front ++ back := by
    simp only [extensions, List.forall_mem_cons]
    exact ⟨⟨[46, 112], _, List.mem_cons_self .., by decide⟩,
      ⟨[46, 119, 101], [98, 112], by simp, by decide⟩,
      ⟨[46, 106, 112], [101, 103], by simp, by decide⟩, List.forall_mem_nil _⟩
  obtain ⟨front, back, hback, hext⟩ := hends _ (extension_mem (sourceUrl quality r.url))
  rw [fileName_eq, Path.bytes_append, hext, ← List.append_assoc]
  exact ⟨_, back, hback, rfl⟩

/-- So no name that ends otherwise is one of an image's file, not even as it stands on the disk. -/
theorem Record.onDisk_fileName_ne_of_end (quality : Text) (r : Record) {m : Text} (front : Bytes)
    {a b : UInt8} (hm : Path.bytes m = front ++ [a, b])
    (hend : [a, b] ∉ [[110, 103], [98, 112], [101, 103]]) :
    Path.onDisk (r.target quality).fileName ≠ Path.onDisk m := by
  intro h
  obtain ⟨front', back, hback, hname⟩ := r.bytes_fileName quality
  have hbytes := congrArg Path.bytes h
  rw [Path.bytes_onDisk, Path.bytes_onDisk, hname, hm] at hbytes
  have hlength : ∀ back ∈ [[110, 103], [98, 112], [(101 : UInt8), 103]], back.length = 2 := by
    decide
  obtain rfl := (List.append_inj' hbytes (hlength back hback)).2
  exact hend hback

theorem Record.onDisk_fileName_ne (quality : Text) (r : Record) :
    Path.onDisk (r.target quality).fileName ≠ Path.onDisk Cache.fileName :=
  r.onDisk_fileName_ne_of_end quality (m := Cache.fileName)
    [109, 101, 116, 97, 100, 97, 116, 97, 46, 106, 115] (a := 111) (b := 110) (by decide)
    (by decide)

/-- Whatever images are downloaded, the cache file stays as it is. -/
theorem Slots.atName_drain {s : Slots} {p : Text} {S : Route} {e? : Option Entry}
    (hfolder : s.folder = p) (hidle : s.running = [])
    (h : s.disk.AtName p Cache.fileName S e?) : s.drain.disk.AtName p Cache.fileName S e? := by
  have hspares : ∀ (quality : Text) (r : Record), Path.Spares
      (Path.join p (r.target quality).fileName) (Disk.AtName · p Cache.fileName S e?) :=
    fun quality r => Disk.atName_spared (r.isName_fileName quality) (r.onDisk_fileName_ne quality)
  have hstart : s.Sparing (Disk.AtName · p Cache.fileName S e?) p := by
    refine ⟨hfolder, h, ?_⟩
    rw [hidle]
    exact List.forall_mem_nil _
  exact (hstart.drain hspares).disk

end GalleryScan
