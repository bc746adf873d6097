import GalleryScan.Proofs.Download.Accounting

/-!
# What downloads touch

A download opens, writes and removes the file at its own path and does nothing else to the disk. So
a property of the disk that stays whatever is done to the file at that path stays through every step
of the download:

> `t.path.Spares P → P d → P (t.start d gatesOpen server).disk`

and through whatever happens to jobs, if this holds of the paths of all of them. Nothing is asked of
the images here: their files may be the same, or be there, or be folders.
-/

set_option autoImplicit false

namespace GalleryScan

/-- The property of the disk stays when a file is put or erased at the end of the path. -/
def Path.Spares (path : Text) (P : Disk → Prop) : Prop :=
  ∃ p n, path = Path.join p n ∧ Path.IsName n ∧ ∀ d R, P d → d.Leads p n R →
    d.entry? (R ++ [Path.onDisk n]) ≠ some .folder →
    (∀ content, P (d.put (R ++ [Path.onDisk n]) (.file content)))
      ∧ P (d.erase (R ++ [Path.onDisk n]))

section Paths

variable {P : Disk → Prop} {path : Text} {d d' : Disk}

/-! ## Operations on one file -/

theorem Disk.openFile_spares (h : P d) (hpath : Path.Spares path P)
    (hopen : d.openFile path = .ok d') : P d' := by
  obtain ⟨p, n, rfl, hn, hspares⟩ := hpath
  obtain ⟨_, R, hleads, hfolder, rfl⟩ := openFile_eq_ok hn hopen
  exact (hspares d R h hleads hfolder).1 _

theorem Disk.writeFile_spares (h : P d) (hpath : Path.Spares path P) (content : Bytes) :
    P (d.writeFile path content) := by
  obtain ⟨p, n, rfl, hn, hspares⟩ := hpath
  unfold Disk.writeFile
  split
  · rename_i r old hlocate
    obtain ⟨R, hleads, hspot⟩ := leads_of_locate hn hlocate
    rw [spot] at hspot
    split at hspot
    · rename_i e hentry
      cases hspot
      exact (hspares d R h hleads (by rw [hentry]; simp)).1 _
    · cases hspot
  · exact h

theorem Disk.removeFile_spares (h : P d) (hpath : Path.Spares path P)
    (hremove : d.removeFile path = .ok d') : P d' := by
  obtain ⟨p, n, rfl, hn, hspares⟩ := hpath
  cases hfind : d.find (Path.join p n) with
  | error fault =>
    rw [Disk.removeFile, hfind] at hremove
    cases hremove
  | ok s =>
    rw [Disk.removeFile, hfind] at hremove
    obtain ⟨R, hleads, rfl⟩ := leads_of_locate hn (find_eq_ok hfind).2
    cases hentry : d.entry? (R ++ [Path.onDisk n]) with
    | none =>
      rw [spot_of_none hentry] at hremove
      cases hremove
    | some e =>
      rw [spot_of_some hentry] at hremove
      cases e with
      | folder => cases hremove
      | file content =>
        cases hremove
        exact (hspares d R h hleads (by rw [hentry]; simp)).2

theorem Stream.send_spares (h : P d) (hpath : Path.Spares path P) (file : Stream) (piece : Bytes) :
    P (file.send d path piece).1 := by
  rw [Stream.send]
  dsimp only
  split
  · exact Disk.writeFile_spares h hpath _
  · exact h

theorem Stream.write_spares (h : P d) (hpath : Path.Spares path P) (file : Stream)
    (piece : Bytes) : P (file.write d path piece).1 := by
  have hflush : P (file.flush d path).1 := send_spares h hpath file file.pending
  unfold Stream.write
  split
  · exact h
  · dsimp only
    split
    · exact send_spares hflush hpath _ piece
    · exact hflush

end Paths

/-! ## Steps of a download -/

namespace Transfer

variable {P : Disk → Prop} {t : Transfer} {d : Disk}

theorem endWithout_spares (h : P d) (ht : Path.Spares t.path P) (o : Outcome) :
    P (t.endWithout d o).disk := by
  have hclear : P (t.clear d).2.1 := by
    unfold clear
    split
    · rename_i d' hremove
      exact Disk.removeFile_spares h ht hremove
    · exact h
    · split <;> exact h
  unfold endWithout
  split
  · rename_i hc
    rwa [hc] at hclear
  · rename_i hc
    rwa [hc] at hclear

theorem receive_spares (h : P d) (ht : Path.Spares t.path P) (gatesOpen : Bool)
    (break? : Option Text) (file : Stream) (chunks : List Chunk) :
    P (t.receive gatesOpen break? d file chunks).disk := by
  fun_induction t.receive gatesOpen break? d file chunks with
  | case1 d file => exact Stream.send_spares h ht file file.pending
  | case2 d file message => exact endWithout_spares h ht _
  | case3 d file rest => exact Stream.send_spares h ht file file.pending
  | case4 d file b bs rest d' file' hwrite ih =>
    have hwritten := Stream.write_spares h ht file (b :: bs)
    rw [hwrite] at hwritten
    exact ih hwritten
  | case5 d file rest hopen ih => exact ih h
  | case6 => exact h

theorem respond_spares (h : P d) (ht : Path.Spares t.path P) (gatesOpen : Bool)
    (reply : ImageReply) : P (t.respond d gatesOpen reply).disk := by
  unfold respond
  split
  · split
    · exact h
    · exact endWithout_spares h ht _
  · split
    · exact endWithout_spares h ht _
    · split
      · exact endWithout_spares h ht _
      · dsimp only
        split
        · exact endWithout_spares h ht _
        · rename_i d' hopen
          have hopened : P d' := Disk.openFile_spares h ht hopen
          split
          · exact endWithout_spares hopened ht _
          · exact receive_spares hopened ht _ _ _ _

theorem start_spares (h : P d) (ht : Path.Spares t.path P) (gatesOpen : Bool)
    (server : ImageServer) : P (t.start d gatesOpen server).disk := by
  unfold start
  split
  · exact h
  · dsimp only
    split
    · exact h
    · exact respond_spares h ht _ _

theorem resume_spares (h : P d) (ht : Path.Spares t.path P) (gatesOpen : Bool)
    (reply : ImageReply) (gate : Gate) : P (t.resume d gatesOpen reply gate).disk := by
  cases gate with
  | answer => exact respond_spares h ht _ _
  | body rest break? file => exact receive_spares h ht _ _ _ _

end Transfer

namespace Slots

/-! ## The end of a job -/

/-- What the end of a job leaves of the state: more may have been said, but folder, disk and the
downloads in slots are as they were. -/
structure Continues (s s' : Slots) : Prop where
  folder : s'.folder = s.folder
  disk : s'.disk = s.disk
  transfers : ∀ r' ∈ s'.running, ∃ r ∈ s.running, r'.transfer = r.transfer
  log : s.log <+: s'.log

theorem Continues.refl (s : Slots) : Continues s s :=
  ⟨rfl, rfl, fun r hr => ⟨r, hr, rfl⟩, List.prefix_rfl⟩

theorem Continues.trans {s s' s'' : Slots} (h : Continues s s') (h' : Continues s' s'') :
    Continues s s'' where
  folder := h'.folder.trans h.folder
  disk := h'.disk.trans h.disk
  transfers := by
    intro r'' hr''
    obtain ⟨r', hr', htransfer'⟩ := h'.transfers r'' hr''
    obtain ⟨r, hr, htransfer⟩ := h.transfers r' hr'
    exact ⟨r, hr, htransfer'.trans htransfer⟩
  log := h.log.trans h'.log

theorem continues_enqueueAll (s : Slots) (js : List Job) : Continues s (s.enqueueAll js) := by
  induction js generalizing s with
  | nil => exact .refl s
  | cons j js ih =>
    have hfirst : Continues s (s.enqueue j) :=
      ⟨rfl, rfl, fun r hr => ⟨r, hr, rfl⟩, List.prefix_rfl⟩
    exact hfirst.trans (ih _)

theorem continues_tell (s : Slots) (j : Job) (e : Option DownloadError) :
    Continues s (s.tell j e) := by
  unfold tell
  split
  · exact .refl s
  · rename_i f _
    refine Continues.trans ?_ (continues_enqueueAll _ j.next)
    exact ⟨rfl, rfl, fun r hr => ⟨r, hr, rfl⟩, List.prefix_append ..⟩

theorem continues_takeName (s : Slots) (path : Text) : Continues s (s.takeName path) := by
  refine ⟨rfl, rfl, ?_, List.prefix_rfl⟩
  intro r' hr'
  obtain ⟨r, hr, rfl⟩ := List.mem_map.mp hr'
  refine ⟨r, hr, ?_⟩
  split <;> rfl

theorem continues_finish (s : Slots) (j : Job) (path : Text) (o : Outcome) :
    Continues s (s.finish j path o) := by
  have hended : Continues s { s with ended := s.ended ++ [(j, o)] } :=
    ⟨rfl, rfl, fun r hr => ⟨r, hr, rfl⟩, List.prefix_rfl⟩
  cases o with
  | saved =>
    refine hended.trans (Continues.trans ?_ (continues_tell _ j none))
    exact ⟨rfl, rfl, fun r hr => ⟨r, hr, rfl⟩, List.prefix_rfl⟩
  | failed e =>
    refine (hended.trans (continues_takeName _ path)).trans
      (Continues.trans ?_ (continues_tell _ j (some e)))
    exact ⟨rfl, rfl, fun r hr => ⟨r, hr, rfl⟩, List.prefix_append ..⟩
  | cancelled => exact hended.trans (continues_takeName _ path)
  | stopped stop => exact ⟨rfl, rfl, fun r hr => ⟨r, hr, rfl⟩, List.prefix_rfl⟩

/-- The slots when a job in one of them has made a step, without that job. -/
def stepped (s : Slots) (before after : List Running) (step : Step) : Slots :=
  { s with log := s.log ++ step.log, disk := step.disk, running := before ++ after }

/-! ## What was said stays said -/

section Saying

variable {s s' : Slots}

theorem log_settle (s : Slots) (before : List Running) (j : Job) (t : Transfer) (reply : ImageReply)
    (after : List Running) (step : Step) :
    s.log <+: (s.settle before j t reply after step).log := by
  unfold settle
  dsimp only
  split
  · exact List.prefix_append ..
  · exact (List.prefix_append ..).trans (continues_finish (s.stepped before after step) _ _ _).log

theorem Turn.log (h : Turn s s') : s.log <+: s'.log := by
  cases h with
  | submit j ordinary => exact List.prefix_rfl
  | start gatesOpen j rest next free => exact log_settle { s with waiting := rest } _ _ _ _ _ _
  | goOn gatesOpen before r after place => exact log_settle _ _ _ _ _ _ _
  | cancelRunning before r after place => exact log_settle _ _ _ _ _ _ _
  | cancelWaiting front j back place => exact List.prefix_rfl

theorem Turns.log (h : Turns s s') : s.log <+: s'.log := by
  induction h with
  | none => exact List.prefix_rfl
  | more _ turn ih => exact ih.trans turn.log

theorem log_drain (s : Slots) : s.log <+: s.drain.log := (turns_drain s).log

end Saying

/-! ## Whatever happens to jobs -/

/-- The slots are for images of this folder, the disk has the property, and the downloads in slots
spare it. -/
structure Sparing (P : Disk → Prop) (p : Text) (s : Slots) : Prop where
  folder : s.folder = p
  disk : P s.disk
  running : ∀ r ∈ s.running, Path.Spares r.transfer.path P

variable {P : Disk → Prop} {p : Text} {s s' : Slots}

theorem Sparing.continues (h : s.Sparing P p) (hs : Continues s s') : s'.Sparing P p where
  folder := hs.folder.trans h.folder
  disk := by
    rw [hs.disk]
    exact h.disk
  running := by
    intro r' hr'
    obtain ⟨r, hr, htransfer⟩ := hs.transfers r' hr'
    rw [htransfer]
    exact h.running r hr

/-- A job in a slot has made a step, which left the property alone. -/
theorem Sparing.settle {before after : List Running} {step : Step} {t : Transfer} (j : Job)
    (reply : ImageReply) (h : s.Sparing P p)
    (hothers : ∀ r ∈ before ++ after, Path.Spares r.transfer.path P)
    (ht : Path.Spares t.path P) (hstep : P step.disk) :
    (s.settle before j t reply after step).Sparing P p := by
  unfold Slots.settle
  dsimp only
  split
  · refine ⟨h.folder, hstep, ?_⟩
    intro r hr
    rcases List.mem_append.mp hr with hr | hr
    · exact hothers r (List.mem_append_left _ hr)
    rcases List.mem_cons.mp hr with rfl | hr
    · exact ht
    · exact hothers r (List.mem_append_right _ hr)
  · have hstepped : (s.stepped before after step).Sparing P p := ⟨h.folder, hstep, hothers⟩
    exact hstepped.continues (continues_finish _ j t.path _)

theorem Sparing.settle_running {before after : List Running} {r : Running} {step : Step}
    (h : s.Sparing P p) (hr : s.running = before ++ r :: after)
    (hstep : Path.Spares r.transfer.path P → P step.disk) :
    (s.settle before r.job r.transfer r.reply after step).Sparing P p := by
  have ht := h.running r (hr ▸ List.mem_append_right _ (List.mem_cons_self ..))
  refine h.settle r.job r.reply ?_ ht (hstep ht)
  intro r' hr'
  apply h.running r'
  rw [hr]
  exact ((List.sublist_cons_self r after).append_left before).mem hr'

section All

variable (hP : ∀ (quality : Text) (r : Record),
  Path.Spares (Path.join p (r.target quality).fileName) P)

include hP

theorem Sparing.turn (h : s.Sparing P p) (ht : Turn s s') : s'.Sparing P p := by
  cases ht with
  | submit j ordinary => exact ⟨h.folder, h.disk, h.running⟩
  | start gatesOpen j rest next free =>
    have hwaits : Sparing P p { s with waiting := rest } := ⟨h.folder, h.disk, h.running⟩
    have ht : Path.Spares (s.transferOf j).path P := by
      have hpath := hP s.quality j.record
      rwa [← h.folder] at hpath
    refine hwaits.settle j _ ?_ ht (Transfer.start_spares h.disk ht gatesOpen s.server)
    rw [List.append_nil]
    exact h.running
  | goOn gatesOpen before r after place =>
    exact h.settle_running place fun ht => Transfer.resume_spares h.disk ht gatesOpen _ _
  | cancelRunning before r after place =>
    exact h.settle_running place fun ht => Transfer.endWithout_spares h.disk ht _
  | cancelWaiting front j back place => exact ⟨h.folder, h.disk, h.running⟩

/-- By induction on the turns. -/
theorem Sparing.turns (h : s.Sparing P p) (ht : Turns s s') : s'.Sparing P p := by
  induction ht with
  | none => exact h
  | more _ turn ih => exact ih.turn hP turn

theorem Sparing.drain (h : s.Sparing P p) : s.drain.Sparing P p := by
  have hgoes : Sparing P p { s with stop := none } := ⟨h.folder, h.disk, h.running⟩
  exact hgoes.turns hP (turns_drain s)

end All

end Slots

end GalleryScan
