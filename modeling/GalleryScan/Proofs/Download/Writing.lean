import GalleryScan.Disk.Stream
import GalleryScan.Proofs.Disk.Changing

/-!
# What an open file has received

A file that is being written holds, with what still waits to go to the disk, all that was written to
it so far:

> `file.Holds d p n R got → (file.write d path piece).2.Holds _ p n R (got ++ piece)`

as long as its name leads to it and nobody else has written to it. Of the disk nothing changes but
the entry of this one file.
-/

set_option autoImplicit false

namespace GalleryScan

namespace Stream

/-- Opened as a name in a folder, the file has received these bytes: the first of them are on the
disk, and the others wait. -/
structure Holds (file : Stream) (d : Disk) (p n : Text) (R : Route) (got : Bytes) : Prop where
  leads : d.Leads p n R
  check : Disk.checkPath (Path.join p n) = .ok ()
  named : file.named = true
  sent : ∃ sent, d.entry? (R ++ [Path.onDisk n]) = some (.file sent)
    ∧ file.position = sent.length ∧ sent ++ file.pending = got

variable {file : Stream} {d : Disk} {p n : Text} {R : Route} {got : Bytes}

theorem Holds.noFolder (h : file.Holds d p n R got) :
    d.entry? (R ++ [Path.onDisk n]) ≠ some .folder := by
  obtain ⟨sent, hsent, _⟩ := h.sent
  rw [hsent]
  simp

/-- A path leads where it led after a file at its end is put there. -/
theorem leads_put (h : d.Leads p n R) (hfolder : d.entry? (R ++ [Path.onDisk n]) ≠ some .folder)
    (e : Entry) : (d.put (R ++ [Path.onDisk n]) e).Leads p n R :=
  h.mono rfl fun _ hT => Disk.folder_put hfolder e hT

/-- What was just opened has received nothing. -/
theorem holds_opened (h : d.Leads p n R) (hcheck : Disk.checkPath (Path.join p n) = .ok ())
    (hfolder : d.entry? (R ++ [Path.onDisk n]) ≠ some .folder) :
    Holds .opened (d.put (R ++ [Path.onDisk n]) (.file [])) p n R [] :=
  ⟨leads_put h hfolder _, hcheck, rfl, [], Disk.entry?_put_self hfolder _, rfl, rfl⟩

/-! ## One piece -/

/-- What waits goes to the disk. -/
theorem Holds.flush (h : file.Holds d p n R got) :
    Disk.SameBut (R ++ [Path.onDisk n]) d (file.flush d (Path.join p n)).1
      ∧ (file.flush d (Path.join p n)).2.Holds (file.flush d (Path.join p n)).1 p n R got
      ∧ (file.flush d (Path.join p n)).2.pending = []
      ∧ Disk.entry? (file.flush d (Path.join p n)).1 (R ++ [Path.onDisk n]) = some (.file got) := by
  obtain ⟨sent, hsent, hposition, hgot⟩ := h.sent
  have hdisk : (file.flush d (Path.join p n)).1
      = d.put (R ++ [Path.onDisk n]) (.file got) := by
    rw [Stream.flush, send, h.named, if_pos rfl, Disk.overlay, h.leads.read h.check hsent,
      hposition]
    show d.writeFile _ (Disk.overlaid sent sent.length file.pending) = _
    rw [Disk.overlaid_length, hgot, h.leads.writeFile hsent]
  rw [hdisk]
  have hput := Disk.entry?_put_self h.noFolder (.file got)
  refine ⟨Disk.sameBut_put _ _ _, ⟨leads_put h.leads h.noFolder _, h.check, h.named, ?_⟩, rfl, hput⟩
  refine ⟨got, hput, ?_, List.append_nil _⟩
  show file.position + file.pending.length = got.length
  rw [hposition, ← hgot, List.length_append]

/-- Where nothing waits, a piece goes to the disk at once. -/
theorem Holds.send (h : file.Holds d p n R got) (hpending : file.pending = []) (piece : Bytes) :
    Disk.SameBut (R ++ [Path.onDisk n]) d (file.send d (Path.join p n) piece).1
      ∧ (file.send d (Path.join p n) piece).2.Holds (file.send d (Path.join p n) piece).1 p n R
        (got ++ piece) := by
  obtain ⟨sent, hsent, hposition, hgot⟩ := h.sent
  rw [hpending, List.append_nil] at hgot
  have hdisk : (file.send d (Path.join p n) piece).1
      = d.put (R ++ [Path.onDisk n]) (.file (got ++ piece)) := by
    rw [Stream.send, h.named, if_pos rfl, Disk.overlay, h.leads.read h.check hsent, hposition]
    show d.writeFile _ (Disk.overlaid sent sent.length piece) = _
    rw [Disk.overlaid_length, hgot, h.leads.writeFile hsent]
  rw [hdisk]
  refine ⟨Disk.sameBut_put _ _ _, leads_put h.leads h.noFolder _, h.check, h.named, ?_⟩
  refine ⟨got ++ piece, Disk.entry?_put_self h.noFolder _, ?_, ?_⟩
  · show file.position + piece.length = (got ++ piece).length
    rw [hposition, hgot, List.length_append]
  · show got ++ piece ++ file.pending = got ++ piece
    rw [hpending, List.append_nil]

/-- A piece is received, whether it waits, or lets what waits go first, or goes to the disk. -/
theorem Holds.write (h : file.Holds d p n R got) (piece : Bytes) :
    Disk.SameBut (R ++ [Path.onDisk n]) d (file.write d (Path.join p n) piece).1
      ∧ (file.write d (Path.join p n) piece).2.Holds (file.write d (Path.join p n) piece).1 p n R
        (got ++ piece) := by
  rw [Stream.write]
  by_cases hfits : file.pending.length + piece.length ≤ blockSize
  · rw [if_pos hfits]
    obtain ⟨sent, hsent, hposition, hgot⟩ := h.sent
    refine ⟨.refl _ _, h.leads, h.check, h.named, sent, hsent, hposition, ?_⟩
    rw [← hgot, List.append_assoc]
  rw [if_neg hfits]
  obtain ⟨hsame, hholds, hpending, hentry⟩ := h.flush
  dsimp only
  by_cases hlong : blockSize < piece.length
  · rw [if_pos hlong]
    obtain ⟨hsame', hholds'⟩ := hholds.send hpending piece
    exact ⟨hsame.trans hsame', hholds'⟩
  · rw [if_neg hlong]
    obtain ⟨sent, hsent, hposition, hgot⟩ := hholds.sent
    rw [hpending, List.append_nil] at hgot
    refine ⟨hsame, hholds.leads, hholds.check, hholds.named, sent, hsent, hposition, ?_⟩
    show sent ++ piece = got ++ piece
    rw [hgot]

/-- When the file is closed, all that it has received is on the disk. -/
theorem Holds.close (h : file.Holds d p n R got) :
    Disk.SameBut (R ++ [Path.onDisk n]) d (file.close d (Path.join p n))
      ∧ Disk.entry? (file.close d (Path.join p n)) (R ++ [Path.onDisk n]) = some (.file got) :=
  ⟨h.flush.1, h.flush.2.2.2⟩

end Stream

end GalleryScan
