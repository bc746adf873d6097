import GalleryScan.Download.Transfer
import GalleryScan.Proofs.Disk.Folder
import GalleryScan.Proofs.Download.Writing

/-!
# One download by itself

What a download comes to is decided by the reply to its request: either its file will hold the bytes
of the body, up to an empty chunk, or there will be no file. Wherever it stands meanwhile, at most
its own file has changed, and at a gate in the body that file has received the first of these bytes:

> `Advances d p n R (fileOf? …) (t.respond d gatesOpen reply)`
-/

set_option autoImplicit false

namespace GalleryScan

/-! ## What a reply comes to -/

/-- The content of a chunk. -/
def Chunk.data? : Chunk → Option Bytes
  | data content => some content
  | gate => none

namespace Body

/-- The bytes of a body: its chunks put together, up to the first empty one. -/
def arrived (chunks : List Chunk) : Bytes :=
  ((chunks.filterMap Chunk.data?).takeWhile (· ≠ [])).flatten

/-- Does an empty chunk end the body? -/
def endsEarly (chunks : List Chunk) : Bool := (chunks.filterMap Chunk.data?).contains []

/-- What a file will hold that has received some bytes and gets the rest of a body, unless the
connection breaks before the end. -/
def fileOf? (got : Bytes) (rest : List Chunk) (break? : Option Text) : Option Bytes :=
  if break?.isSome && !endsEarly rest then none else some (got ++ arrived rest)

variable (got : Bytes) (rest : List Chunk) (break? : Option Text)

theorem fileOf?_gate : fileOf? got (.gate :: rest) break? = fileOf? got rest break? := rfl

theorem fileOf?_nil : fileOf? got [] break? = if break?.isSome then none else some got := by
  rw [fileOf?, arrived]
  show (if break?.isSome && true then none else some (got ++ [])) = _
  rw [Bool.and_true, List.append_nil]

theorem fileOf?_empty : fileOf? got (.data [] :: rest) break? = some got := by
  have hends : endsEarly (.data [] :: rest) = true := by
    rw [endsEarly, List.filterMap_cons_some (by rfl), List.contains_cons]
    rfl
  have harrived : arrived (.data [] :: rest) = [] := by
    rw [arrived, List.filterMap_cons_some (by rfl), List.takeWhile_cons_of_neg (by decide)]
    rfl
  rw [fileOf?, hends, harrived, Bool.not_true, Bool.and_false, List.append_nil]
  rfl

theorem fileOf?_data (b : UInt8) (bs : Bytes) :
    fileOf? got (.data (b :: bs) :: rest) break? = fileOf? (got ++ b :: bs) rest break? := by
  have hends : endsEarly (.data (b :: bs) :: rest) = endsEarly rest := by
    rw [endsEarly, List.filterMap_cons_some (by rfl), List.contains_cons]
    rfl
  have harrived : arrived (.data (b :: bs) :: rest) = b :: bs ++ arrived rest := by
    rw [arrived, List.filterMap_cons_some (by rfl), List.takeWhile_cons_of_pos (by simp)]
    rfl
  rw [fileOf?, fileOf?, hends, harrived, List.append_assoc]

end Body

/-- The content of the file that a reply leads to, if it leads to one. -/
def ImageReply.file? (hasBar : Bool) (reply : ImageReply) : Option Bytes :=
  match reply.answer with
  | .error _ => none
  | .ok a =>
    if 400 ≤ a.status then none
    else match Transfer.announced a.headers with
      | .error _ => none
      | .ok length =>
        if hasBar && Double.isTooLarge length then none else Body.fileOf? [] a.chunks a.break?

/-- The failure of a request that is no wish to stop the program. -/
def ImageReply.IsOrdinary (reply : ImageReply) : Prop :=
  ∀ fault, reply.answer = .error fault → fault.kind ≠ .interrupt

instance (reply : ImageReply) : Decidable reply.IsOrdinary :=
  match h : reply.answer with
  | .ok _ => .isTrue fun fault hfault => by
    rw [h] at hfault
    cases hfault
  | .error fault => decidable_of_iff (fault.kind ≠ .interrupt) <| by
    rw [ImageReply.IsOrdinary, h]
    exact ⟨fun hkind _ hfault => by cases hfault; exact hkind, fun hall => hall fault rfl⟩

/-! ## What a step does -/

/-- The second disk differs from the first one at most in the entry of the name, which has to fit
for that. -/
structure Disk.Frame (p n : Text) (R : Route) (d d' : Disk) : Prop where
  here : d'.here = d.here
  other : ∀ S, ¬ (Path.Fits p n ∧ S = R ++ [Path.onDisk n]) → d'.entry? S = d.entry? S

theorem Disk.Frame.refl (p n : Text) (R : Route) (d : Disk) : Frame p n R d d :=
  ⟨rfl, fun _ _ => rfl⟩

theorem Disk.Frame.trans {p n : Text} {R : Route} {d d' d'' : Disk} (h : Frame p n R d d')
    (h' : Frame p n R d' d'') : Frame p n R d d'' :=
  ⟨h'.here.trans h.here, fun S hS => (h'.other S hS).trans (h.other S hS)⟩

theorem Disk.SameBut.frame {p n : Text} {R : Route} {d d' : Disk} (hfits : Path.Fits p n)
    (h : SameBut (R ++ [Path.onDisk n]) d d') : Frame p n R d d' :=
  ⟨h.here, fun S hS => h.other S fun hr => hS ⟨hfits, hr⟩⟩

/-- Where a download to a name in a folder may stand on a disk, if its file is to hold the bytes. -/
inductive Progress.Right (d : Disk) (p n : Text) (R : Route) (file? : Option Bytes) :
    Progress → Prop where
  | answer (free : d.at? (Path.join p n) = none) : Right d p n R file? (.standing .answer)
  | body (got : Bytes) (rest : List Chunk) (break? : Option Text) (file : Stream)
      (holds : file.Holds d p n R got) (whole : Body.fileOf? got rest break? = file?) :
      Right d p n R file? (.standing (.body rest break? file))
  | saved (content : Bytes) (whole : file? = some content)
      (there : d.at? (Path.join p n) = some (.file content)) : Right d p n R file? (.ended .saved)
  | failed (e : DownloadError) (lost : file? = none) (free : d.at? (Path.join p n) = none) :
      Right d p n R file? (.ended (.failed e))
  | cancelled (free : d.at? (Path.join p n) = none) : Right d p n R file? (.ended .cancelled)

/-- A step from a disk: it changes at most the file of its own name, and ends where it may. -/
structure Step.Advances (d : Disk) (p n : Text) (R : Route) (file? : Option Bytes) (step : Step) :
    Prop where
  frame : Disk.Frame p n R d step.disk
  right : step.progress.Right step.disk p n R file?

/-- What comes before a step counts as part of it. -/
theorem Step.Advances.after {d d' : Disk} {p n : Text} {R : Route} {file? : Option Bytes}
    {step : Step} (h : Disk.Frame p n R d d') (h' : step.Advances d' p n R file?) :
    step.Advances d p n R file? := ⟨h.trans h'.frame, h'.right⟩

namespace Stream

variable {file : Stream} {d : Disk} {p n : Text} {R : Route} {got : Bytes}

theorem Holds.fits (h : file.Holds d p n R got) : Path.Fits p n := ⟨h.leads.short, h.leads.fits⟩

/-- A file that was being written can be removed. -/
theorem Holds.removeFile (h : file.Holds d p n R got) :
    d.removeFile (Path.join p n) = .ok (d.erase (R ++ [Path.onDisk n])) := by
  obtain ⟨sent, hsent, _⟩ := h.sent
  exact h.leads.removeFile h.check hsent

theorem leads_erase (h : d.Leads p n R) (hfolder : d.entry? (R ++ [Path.onDisk n]) ≠ some .folder) :
    (d.erase (R ++ [Path.onDisk n])).Leads p n R :=
  h.mono rfl fun _ hT => Disk.folder_erase hfolder hT

theorem Holds.at?_erase (h : file.Holds d p n R got) :
    (d.erase (R ++ [Path.onDisk n])).at? (Path.join p n) = none := by
  rw [(leads_erase h.leads h.noFolder).at? h.check, Disk.entry?_erase_self h.noFolder]

end Stream

namespace Transfer

variable {t : Transfer} {d : Disk} {p n : Text} {R : Route}

/-! ## The body -/

/-- The end without a file of a download that has opened it. -/
theorem endWithout_of_holds {file : Stream} {got : Bytes} (hpath : t.path = Path.join p n)
    (h : file.Holds d p n R got) (o : Outcome) :
    t.endWithout d o = ⟨[], d.erase (R ++ [Path.onDisk n]), .ended o⟩ := by
  rw [endWithout, clear, hpath, h.removeFile]

theorem save_advances {file : Stream} {got : Bytes} (hpath : t.path = Path.join p n)
    (h : file.Holds d p n R got) : (t.save d file).Advances d p n R (some got) := by
  obtain ⟨hsame, hentry⟩ := h.close
  rw [save, hpath]
  refine ⟨hsame.frame h.fits, .saved got rfl ?_⟩
  have hfolders : ∀ S, d.entry? S = some .folder →
      Disk.entry? (file.close d (Path.join p n)) S = some .folder := by
    intro S hS
    rw [hsame.other S]
    · exact hS
    · rintro rfl
      exact h.noFolder hS
  rw [(h.leads.mono hsame.here hfolders).at? h.check, hentry]

/-- By induction along the chunks: the file has always received those before. -/
theorem receive_advances {file : Stream} {got : Bytes} (hpath : t.path = Path.join p n)
    (h : file.Holds d p n R got) (gatesOpen : Bool) (break? : Option Text) (chunks : List Chunk) :
    (t.receive gatesOpen break? d file chunks).Advances d p n R
      (Body.fileOf? got chunks break?) := by
  fun_induction t.receive gatesOpen break? d file chunks generalizing got with
  | case1 d file hbreak =>
    rw [Body.fileOf?_nil, hbreak]
    exact save_advances hpath h
  | case2 d file message hbreak =>
    rw [Body.fileOf?_nil, hbreak, fail, endWithout_of_holds hpath h]
    exact ⟨(Disk.sameBut_erase _ _).frame h.fits, .failed _ rfl h.at?_erase⟩
  | case3 d file rest =>
    rw [Body.fileOf?_empty]
    exact save_advances hpath h
  | case4 d file b bs rest d' file' hwrite ih =>
    rw [Body.fileOf?_data]
    have hwritten := h.write (b :: bs)
    rw [← hpath, hwrite] at hwritten
    exact (ih hwritten.2).after (hwritten.1.frame h.fits)
  | case5 d file rest _ ih =>
    rw [Body.fileOf?_gate]
    exact ih h
  | case6 d file rest _ =>
    exact ⟨.refl _ _ _ _, .body got rest break? file h (Body.fileOf?_gate got rest break?).symm⟩

end Transfer

end GalleryScan
