import GalleryScan.Proofs.Download.Receiving

/-!
# The steps of a download

A download begins, goes on from a gate or is cancelled. If nothing was under its file's name when it
began, every one of these steps is one that advances it: of the disk at most its own file changes,
and where it ends there is the whole file or none.
-/

set_option autoImplicit false

namespace GalleryScan

namespace Transfer

/-- The download goes to a name in a folder that is there. -/
structure GoesTo (t : Transfer) (d : Disk) (p n : Text) (R : Route) : Prop where
  path : t.path = Path.join p n
  folder : d.IsFolder p R
  name : Path.IsName n
  check : Disk.checkPath (Path.join p n) = .ok ()

/-- The content that the file will have, if there will be one. -/
def file? (t : Transfer) (p n : Text) (reply : ImageReply) : Option Bytes :=
  if Path.Fits p n then reply.file? t.hasBar else none

variable {t : Transfer} {d : Disk} {p n : Text} {R : Route} {reply : ImageReply}

theorem GoesTo.leads (h : t.GoesTo d p n R) (hfits : Path.Fits p n) : d.Leads p n R :=
  h.folder.leads h.name hfits

/-- Under a name that does not fit there is nothing. -/
theorem GoesTo.at? (h : t.GoesTo d p n R) : d.at? (Path.join p n)
    = if Path.Fits p n then d.entry? (R ++ [Path.onDisk n]) else none := by
  by_cases hfits : Path.Fits p n
  · rw [if_pos hfits, (h.leads hfits).at? h.check]
  · rw [if_neg hfits, Disk.at?_of_locate (h.folder.locate_unfit h.name hfits)]

/-! ## The end without a file -/

/-- Where no file was opened, none has to be removed. -/
theorem GoesTo.endWithout (h : t.GoesTo d p n R) (hfree : d.at? (Path.join p n) = none)
    (o : Outcome) : ∃ log, t.endWithout d o = ⟨log, d, .ended o⟩ := by
  have hclear : ∃ log, t.clear d = (log, d, none) := by
    rw [clear, h.path]
    by_cases hfits : Path.Fits p n
    · have hleads := h.leads hfits
      rw [hleads.at? h.check] at hfree
      have hremove : d.removeFile (Path.join p n)
          = .error (.refused .missing (Path.join p n) none) := by
        rw [Disk.removeFile, hleads.find h.check, Disk.spot_of_none hfree]
        rfl
      rw [hremove]
      exact ⟨_, rfl⟩
    · rw [Disk.removeFile_of_locate h.check (h.folder.locate_unfit h.name hfits)]
      exact ⟨_, rfl⟩
  obtain ⟨log, hlog⟩ := hclear
  rw [Transfer.endWithout, hlog]
  exact ⟨log, rfl⟩

/-- A download that has opened no file may fail where its reply leads to none. -/
theorem GoesTo.fail_advances (h : t.GoesTo d p n R) (hfree : d.at? (Path.join p n) = none)
    {file? : Option Bytes} (hlost : file? = none) (cause : DownloadCause) :
    (t.fail d cause).Advances d p n R file? := by
  obtain ⟨log, hlog⟩ := h.endWithout hfree (.failed ⟨t.id, cause⟩)
  rw [fail, hlog]
  exact ⟨.refl _ _ _ _, .failed _ hlost hfree⟩

/-! ## The answer -/

/-- What a step says does not matter for where it leads. -/
theorem advances_log {step : Step} {file? : Option Bytes} (h : step.Advances d p n R file?)
    (log : Log) : Step.Advances d p n R file? { step with log } := ⟨h.frame, h.right⟩

/-- With the answer in order, the file is opened and receives the body. -/
theorem GoesTo.body_advances (h : t.GoesTo d p n R) (hfree : d.at? (Path.join p n) = none)
    (gatesOpen : Bool) (length : Int) (a : ImageAnswer) :
    Step.Advances d p n R
      (if Path.Fits p n then
        if t.hasBar && Double.isTooLarge length then none else Body.fileOf? [] a.chunks a.break?
      else none)
      (match d.openFile t.path with
        | .error fault => t.fail d (.disk fault)
        | .ok d =>
          if t.hasBar && Double.isTooLarge length then t.fail d .noBar
          else t.receive gatesOpen a.break? d .opened a.chunks) := by
  by_cases hfits : Path.Fits p n
  · have hleads := h.leads hfits
    have hentry : d.entry? (R ++ [Path.onDisk n]) = none := by
      rwa [hleads.at? h.check] at hfree
    have hfolder : d.entry? (R ++ [Path.onDisk n]) ≠ some .folder := by
      rw [hentry]
      simp
    have hopened := Stream.holds_opened hleads h.check hfolder
    have hframe : Disk.Frame p n R d (d.put (R ++ [Path.onDisk n]) (.file [])) :=
      (Disk.sameBut_put _ _ _).frame hfits
    rw [if_pos hfits, h.path, hleads.openFile h.check hfolder]
    dsimp only
    by_cases hbar : (t.hasBar && Double.isTooLarge length) = true
    · rw [if_pos hbar, if_pos hbar, fail, endWithout_of_holds h.path hopened]
      refine .after hframe ⟨(Disk.sameBut_erase _ _).frame hfits, .failed _ rfl ?_⟩
      exact hopened.at?_erase
    · rw [if_neg hbar, if_neg hbar]
      exact (receive_advances h.path hopened _ _ _).after hframe
  · rw [if_neg hfits, h.path,
      Disk.openFile_of_locate h.check (h.folder.locate_unfit h.name hfits)]
    exact h.fail_advances hfree rfl _

theorem GoesTo.respond_advances (h : t.GoesTo d p n R) (hfree : d.at? (Path.join p n) = none)
    (hreply : reply.IsOrdinary) (gatesOpen : Bool) :
    (t.respond d gatesOpen reply).Advances d p n R (t.file? p n reply) := by
  have hlost : reply.file? t.hasBar = none → t.file? p n reply = none := by
    intro hnone
    rw [Transfer.file?, hnone]
    split <;> rfl
  unfold respond
  cases hanswer : reply.answer with
  | error fault =>
    dsimp only
    rw [if_neg (hreply fault hanswer)]
    exact h.fail_advances hfree (hlost (by rw [ImageReply.file?, hanswer])) _
  | ok a =>
    dsimp only
    by_cases hstatus : 400 ≤ a.status
    · rw [if_pos hstatus]
      refine h.fail_advances hfree (hlost ?_) _
      rw [ImageReply.file?, hanswer]
      exact if_pos hstatus
    rw [if_neg hstatus]
    cases hlength : announced a.headers with
    | error cause =>
      refine h.fail_advances hfree (hlost ?_) _
      rw [ImageReply.file?, hanswer]
      dsimp only
      rw [if_neg hstatus, hlength]
    | ok length =>
      have hfile : t.file? p n reply = if Path.Fits p n then
          if t.hasBar && Double.isTooLarge length then none else Body.fileOf? [] a.chunks a.break?
        else none := by
        rw [Transfer.file?, ImageReply.file?, hanswer]
        dsimp only
        rw [if_neg hstatus, hlength]
      rw [hfile]
      exact advances_log (h.body_advances hfree gatesOpen length a) _

/-! ## Whole steps -/

/-- A download whose file is there is over, and nothing has changed. -/
theorem start_of_entry (hentry : d.at? t.path ≠ none) (gatesOpen : Bool) (server : ImageServer) :
    ∃ log, t.start d gatesOpen server = ⟨log, d, .ended .saved⟩ := by
  have hsome : d.hasEntry t.path = true := by
    rw [Disk.hasEntry]
    exact Option.isSome_iff_ne_none.mpr hentry
  rw [start, if_pos hsome]
  exact ⟨_, rfl⟩

theorem GoesTo.start_advances (h : t.GoesTo d p n R) (hfree : d.at? (Path.join p n) = none)
    {server : ImageServer} (hserver : server.replyTo t.url = reply) (hreply : reply.IsOrdinary)
    (gatesOpen : Bool) :
    (t.start d gatesOpen server).Advances d p n R (t.file? p n reply) := by
  have hnone : ¬ d.hasEntry t.path = true := by
    rw [Disk.hasEntry, h.path, hfree]
    decide
  rw [start, if_neg hnone]
  dsimp only
  rw [hserver]
  refine advances_log ?_ _
  split
  · exact ⟨.refl _ _ _ _, .answer hfree⟩
  · exact h.respond_advances hfree hreply gatesOpen

theorem GoesTo.resume_advances (h : t.GoesTo d p n R) (hreply : reply.IsOrdinary) {gate : Gate}
    (hgate : (Progress.standing gate).Right d p n R (t.file? p n reply)) (gatesOpen : Bool) :
    (t.resume d gatesOpen reply gate).Advances d p n R (t.file? p n reply) := by
  cases hgate with
  | answer free => exact h.respond_advances free hreply gatesOpen
  | body got rest break? file holds whole =>
    rw [← whole]
    exact receive_advances h.path holds gatesOpen break? rest

theorem GoesTo.cancel_advances (h : t.GoesTo d p n R) {file? : Option Bytes} {gate : Gate}
    (hgate : (Progress.standing gate).Right d p n R file?) :
    (t.cancel d).Advances d p n R file? := by
  cases hgate with
  | answer free =>
    obtain ⟨log, hlog⟩ := h.endWithout free .cancelled
    rw [cancel, hlog]
    exact ⟨.refl _ _ _ _, .cancelled free⟩
  | body got rest break? file holds whole =>
    rw [cancel, endWithout_of_holds h.path holds]
    exact ⟨(Disk.sameBut_erase _ _).frame holds.fits, .cancelled holds.at?_erase⟩

end Transfer

end GalleryScan
