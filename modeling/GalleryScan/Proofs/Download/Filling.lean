import GalleryScan.Proofs.Download.Echoing
import GalleryScan.Proofs.Download.Site
import GalleryScan.Proofs.Download.Telling

/-!
# Which images downloads leave in a folder

With all gates open jobs run one after the other, each to its end. Nothing is asked of the names of
their files here, and where two of them are the same the first image stays, for the second job finds
its file there. So a file that is new in the folder is that of the first saved job that has it:

> `s.savedJobs.find? (b.route R · = S) = some j ∧ s.disk.entry? S = some (.file content)`

where `content` is what the reply to the request of `j` leads to, and a job that was not saved has
left nothing. This holds unless something has ended the program.
-/

set_option autoImplicit false

namespace GalleryScan

namespace Transfer

variable {t : Transfer} {d : Disk} {p n : Text} {R : Route} {server : ImageServer}

/-! ## One download -/

/-- How a download to a name in a folder ends with all gates open: its file was there, or is there
now with the content that the reply leads to, or there is none and nothing has changed; or it ends
the program. -/
inductive Settles (d : Disk) (p n : Text) (R : Route) (content? : Option Bytes) (step : Step) :
    Prop where
  | present (progress : step.progress = .ended .saved) (same : step.disk = d)
      (check : Disk.checkPath (Path.join p n) = .ok ()) (fits : Path.Fits p n)
      (there : (d.entry? (R ++ [Path.onDisk n])).isSome = true)
  | saved (content : Bytes) (progress : step.progress = .ended .saved)
      (whole : content? = some content) (check : Disk.checkPath (Path.join p n) = .ok ())
      (fits : Path.Fits p n) (free : d.entry? (R ++ [Path.onDisk n]) = none)
      (same : Disk.SameBut (R ++ [Path.onDisk n]) d step.disk)
      (there : step.disk.entry? (R ++ [Path.onDisk n]) = some (.file content))
  | failed (e : DownloadError) (progress : step.progress = .ended (.failed e))
      (lost : content? = none ∨ ¬ Path.Fits p n) (same : Disk.Same d step.disk)
  | stopped (stop : Stop) (progress : step.progress = .ended (.stopped stop))

/-- Where the path is none, the attempt to remove what is there ends the program. -/
theorem endWithout_stops {fault : DiskFault} (h : Disk.checkPath t.path = .error fault)
    (o : Outcome) : ∃ stop, (t.endWithout d o).progress = .ended (.stopped stop) := by
  have hremove : d.removeFile t.path = .error fault := by
    rw [Disk.removeFile, Disk.find, h]
    rfl
  unfold Disk.checkPath at h
  rw [endWithout, clear, hremove]
  split at h
  · cases h
    exact ⟨_, rfl⟩
  · split at h
    · cases h
      exact ⟨_, rfl⟩
    · cases h

theorem respond_stops {fault : DiskFault} (h : Disk.checkPath t.path = .error fault)
    (gatesOpen : Bool) (reply : ImageReply) :
    ∃ stop, (t.respond d gatesOpen reply).progress = .ended (.stopped stop) := by
  have hopen : d.openFile t.path = .error fault := by
    rw [Disk.openFile, Disk.find, h]
    rfl
  unfold respond
  rw [hopen]
  split
  · split
    · exact ⟨_, rfl⟩
    · exact endWithout_stops h _
  · split
    · exact endWithout_stops h _
    · split
      · exact endWithout_stops h _
      · exact endWithout_stops h _

/-- So does a wish to stop it. -/
theorem respond_stops_of_interrupt {reply : ImageReply} (h : ¬ reply.IsOrdinary)
    (gatesOpen : Bool) :
    ∃ stop, (t.respond d gatesOpen reply).progress = .ended (.stopped stop) := by
  simp only [ImageReply.IsOrdinary, not_forall, ne_eq, not_not] at h
  obtain ⟨fault, hanswer, hkind⟩ := h
  rw [respond, hanswer]
  dsimp only
  rw [if_pos hkind]
  exact ⟨_, rfl⟩

theorem start_of_free (server : ImageServer) (hfree : d.at? t.path = none) :
    (t.start d true server).progress = (t.respond d true (server.replyTo t.url)).progress := by
  rw [start, if_neg (by rw [Disk.hasEntry, hfree]; decide)]
  dsimp only
  rw [Bool.not_true, Bool.and_false, if_neg Bool.false_ne_true]

/-- What stays of a step that advances a download to a free name. -/
theorem GoesTo.settles (h : t.GoesTo d p n R) (hfree : d.at? (Path.join p n) = none)
    {reply : ImageReply} {step : Step} (hstep : step.Advances d p n R (t.file? p n reply))
    {o : Outcome} (ho : step.progress = .ended o) (hnot : o ≠ .cancelled) :
    Settles d p n R (reply.file? t.hasBar) step := by
  obtain ⟨hframe, hright⟩ := hstep
  rw [h.at?] at hfree
  have hfolders : ∀ S, d.entry? S = some .folder → step.disk.entry? S = some .folder := by
    intro S hS
    rw [hframe.other S, hS]
    rintro ⟨hfits, rfl⟩
    rw [if_pos hfits, hS] at hfree
    cases hfree
  have hgoes : t.GoesTo step.disk p n R :=
    ⟨h.path, h.folder.mono hframe.here hfolders, h.name, h.check⟩
  rw [ho] at hright
  cases hright with
  | saved content whole there =>
    by_cases hfits : Path.Fits p n
    · rw [Transfer.file?, if_pos hfits] at whole
      rw [if_pos hfits] at hfree
      rw [hgoes.at?, if_pos hfits] at there
      exact .saved content ho whole h.check hfits hfree
        ⟨hframe.here, fun S hS => hframe.other S fun hs => hS hs.2⟩ there
    · rw [Transfer.file?, if_neg hfits] at whole
      cases whole
  | failed e lost free =>
    refine .failed e ho ?_ ⟨hframe.here, fun S => ?_⟩
    · by_cases hfits : Path.Fits p n
      · rw [Transfer.file?, if_pos hfits] at lost
        exact .inl lost
      · exact .inr hfits
    by_cases hS : Path.Fits p n ∧ S = R ++ [Path.onDisk n]
    · obtain ⟨hfits, rfl⟩ := hS
      rw [hgoes.at?, if_pos hfits] at free
      rw [if_pos hfits] at hfree
      rw [free, hfree]
    · exact hframe.other S hS
  | cancelled free => exact absurd rfl hnot

theorem settles_start (hpath : t.path = Path.join p n) (hfolder : d.IsFolder p R)
    (hn : Path.IsName n) :
    Settles d p n R ((server.replyTo t.url).file? t.hasBar) (t.start d true server) := by
  by_cases hfree : d.at? t.path = none
  · have hstart := start_of_free server hfree
    cases hcheck : Disk.checkPath t.path with
    | error fault =>
      obtain ⟨stop, hstop⟩ := respond_stops (d := d) hcheck true (server.replyTo t.url)
      exact .stopped stop (hstart.trans hstop)
    | ok _ =>
      by_cases hreply : (server.replyTo t.url).IsOrdinary
      · obtain ⟨o, ho⟩ := t.start_ends d server
        rw [hpath] at hcheck hfree
        have hgoes : t.GoesTo d p n R := ⟨hpath, hfolder, hn, hcheck⟩
        refine hgoes.settles hfree (hgoes.start_advances hfree rfl hreply true) ho ?_
        rcases t.start_concludes d true server o ho with rfl | ⟨_, rfl⟩ | ⟨_, rfl⟩ <;> nofun
      · obtain ⟨stop, hstop⟩ := respond_stops_of_interrupt (t := t) (d := d) hreply true
        exact .stopped stop (hstart.trans hstop)
  · obtain ⟨log, hlog⟩ := start_of_entry hfree true server
    rw [hlog]
    cases hcheck : Disk.checkPath t.path with
    | error fault =>
      rw [Disk.at?, hcheck] at hfree
      exact absurd rfl hfree
    | ok _ =>
      rw [hpath] at hcheck hfree
      have hgoes : t.GoesTo d p n R := ⟨hpath, hfolder, hn, hcheck⟩
      rw [hgoes.at?] at hfree
      split at hfree
      · rename_i hfits
        exact .present rfl rfl hcheck hfits (Option.isSome_iff_ne_none.mpr hfree)
      · exact absurd rfl hfree

end Transfer

/-- Is the file there at the end? -/
def Outcome.isSaved : Outcome → Bool
  | saved => true
  | _ => false

namespace Slots

/-! ## Files and jobs -/

def fileName (s : Slots) (j : Job) : Text := (j.record.target s.quality).fileName

/-- Where the file of a job stands, in the folder at the end of the route. -/
def route (s : Slots) (R : Route) (j : Job) : Route := R ++ [Path.onDisk (s.fileName j)]

/-- The content that a job's file gets from the reply to its request, if it leads to one. -/
def content? (s : Slots) (j : Job) : Option Bytes :=
  (s.server.replyTo (s.transferOf j).url).file? s.hasBars

/-- The jobs whose files were there when they ended. -/
def savedJobs (s : Slots) : List Job := (s.ended.filter (·.2.isSaved)).map Prod.fst

/-- What the downloads of the slots `b` have left so far. -/
structure Leaves (b : Slots) (R : Route) (s : Slots) : Prop where
  here : s.disk.here = b.disk.here
  folder : s.disk.IsFolder b.folder R
  settled : ∀ e ∈ s.ended, e.2.isCompleted = true
  /-- A job fails only where the reply leads to no file, or the file's name does not fit. -/
  lost : ∀ e ∈ s.ended, e.2.isFailed = true →
    b.content? e.1 = none ∨ ¬ Path.Fits b.folder (b.fileName e.1)
  /-- The file of a saved job is there. -/
  there : ∀ j ∈ s.savedJobs, Disk.checkPath (Path.join b.folder (b.fileName j)) = .ok ()
    ∧ Path.Fits b.folder (b.fileName j) ∧ (s.disk.entry? (b.route R j)).isSome = true
  /-- What is new is the file of the first saved job that has it. -/
  news : ∀ S, s.disk.entry? S = b.disk.entry? S ∨ b.disk.entry? S = none
    ∧ ∃ j content, s.savedJobs.find? (b.route R · = S) = some j ∧ b.content? j = some content
      ∧ s.disk.entry? S = some (.file content)

/-- Between the downloads of the slots `b`: some of the jobs have ended in their order, and as long
as nothing has ended the program, they have left what is theirs. -/
structure Fills (b : Slots) (R : Route) (s : Slots) : Prop where
  base : ∃ disk waiting completed failed told ended stop log,
    s = { b with disk, waiting, completed, failed, told, ended, stop, log }
  order : s.ended.map Prod.fst ++ s.waiting = b.waiting
  failures : s.told.countP (·.2.isSome) = s.ended.countP (·.2.isFailed)
  leaves : s.stop = none → b.Leaves R s

variable {b s s' : Slots} {R : Route} {j : Job} {o : Outcome}

theorem savedJobs_concat (h : s'.ended = s.ended ++ [(j, o)]) :
    s'.savedJobs = s.savedJobs ++ if o.isSaved then [j] else [] := by
  rw [savedJobs, h, List.filter_append, List.map_append]
  cases hsaved : o.isSaved <;> simp [savedJobs, hsaved]

/-! ## One job more -/

/-- A job without others after it starts in slots that are free and ends at once. -/
theorem begin_open (hidle : s.running = []) (hnext : j.next = [])
    (hears : s.listener.isSome = true)
    (ho : ((s.transferOf j).start s.disk true s.server).progress = .ended o) :
    ∃ completed failed told stop log, s.begin true j
        = { s with
            disk := ((s.transferOf j).start s.disk true s.server).disk
            ended := s.ended ++ [(j, o)], completed, failed, told, stop, log }
      ∧ told.countP (·.2.isSome) = s.told.countP (·.2.isSome) + o.isFailed.toNat
      ∧ (stop = none → s.stop = none ∧ ∀ b, o ≠ .stopped b) := by
  obtain ⟨f, hf⟩ := Option.isSome_iff_exists.mp hears
  have hcount : ∀ e : Option DownloadError, (s.told ++ [(j.record.id, e)]).countP (·.2.isSome)
      = s.told.countP (·.2.isSome) + e.isSome.toNat := by
    intro e
    rw [List.countP_append, List.countP_singleton]
    cases e <;> rfl
  rw [begin, settle, ho, hidle]
  dsimp only [List.append_nil]
  cases o with
  | saved =>
    rw [finish]
    dsimp only
    rw [tell, hf]
    dsimp only
    rw [hnext]
    exact ⟨_, _, _, _, _, rfl, hcount none, fun h => ⟨h, by simp⟩⟩
  | failed e =>
    rw [finish]
    dsimp only
    rw [tell, takeName]
    dsimp only
    rw [hf]
    dsimp only
    rw [hnext]
    exact ⟨_, _, _, _, _, rfl, hcount (some e), fun h => ⟨h, by simp⟩⟩
  | cancelled =>
    exact ⟨_, _, _, _, _, rfl, rfl, fun h => ⟨h, by simp⟩⟩
  | stopped stop =>
    refine ⟨_, _, _, _, _, rfl, rfl, fun h => ?_⟩
    cases hs : s.stop <;> rw [hs] at h <;> cases h

/-- The first saved job with a file stays the first one. -/
theorem find?_savedJobs (hended : s'.ended = s.ended ++ [(j, o)]) {f : Job → Bool} {k : Job}
    (hk : s.savedJobs.find? f = some k) : s'.savedJobs.find? f = some k := by
  rw [savedJobs_concat hended, List.find?_append, hk]
  rfl

theorem forall_ended_concat {P : Job × Outcome → Prop} (hended : s'.ended = s.ended ++ [(j, o)])
    (hold : ∀ e ∈ s.ended, P e) (hnew : P (j, o)) : ∀ e ∈ s'.ended, P e := by
  rw [hended]
  exact List.forall_mem_append.mpr ⟨hold, List.forall_mem_singleton.mpr hnew⟩

/-- A job that changes nothing is saved only where its file is there. -/
theorem Leaves.same (h : b.Leaves R s) (hsame : Disk.Same s.disk s'.disk)
    (hended : s'.ended = s.ended ++ [(j, o)]) (ho : o.isCompleted = true)
    (hlost : o.isFailed = true → b.content? j = none ∨ ¬ Path.Fits b.folder (b.fileName j))
    (hthere : o.isSaved = true → Disk.checkPath (Path.join b.folder (b.fileName j)) = .ok ()
      ∧ Path.Fits b.folder (b.fileName j) ∧ (s.disk.entry? (b.route R j)).isSome = true) :
    b.Leaves R s' := by
  refine ⟨hsame.here.trans h.here, h.folder.mono hsame.here fun S hS => ?_,
    forall_ended_concat hended h.settled ho, forall_ended_concat hended h.lost hlost, ?_,
    fun S => ?_⟩
  · rw [hsame.entries, hS]
  · intro k hk
    rw [savedJobs_concat hended] at hk
    rw [hsame.entries]
    rcases List.mem_append.mp hk with hk | hk
    · exact h.there k hk
    · split at hk
      · rename_i hsaved
        rw [List.mem_singleton.mp hk]
        exact hthere hsaved
      · cases hk
  · rw [hsame.entries]
    exact (h.news S).imp_right fun ⟨hnew, k, content, hk, hcontent⟩ =>
      ⟨hnew, k, content, find?_savedJobs hended hk, hcontent⟩

/-- A job whose file comes to the disk is the first saved one that has this file. -/
theorem Leaves.new {content : Bytes} (h : b.Leaves R s)
    (hsame : Disk.SameBut (b.route R j) s.disk s'.disk)
    (hended : s'.ended = s.ended ++ [(j, .saved)])
    (hcheck : Disk.checkPath (Path.join b.folder (b.fileName j)) = .ok ())
    (hfits : Path.Fits b.folder (b.fileName j)) (hfree : s.disk.entry? (b.route R j) = none)
    (hcontent : b.content? j = some content)
    (hthere : s'.disk.entry? (b.route R j) = some (.file content)) : b.Leaves R s' := by
  have hsaved : s'.savedJobs = s.savedJobs ++ [j] := savedJobs_concat hended
  have hnone : ∀ k ∈ s.savedJobs, b.route R k ≠ b.route R j := by
    intro k hk heq
    have hsome := (h.there k hk).2.2
    rw [heq, hfree] at hsome
    cases hsome
  refine ⟨hsame.here.trans h.here, h.folder.mono hsame.here fun S hS => ?_,
    forall_ended_concat hended h.settled rfl, forall_ended_concat hended h.lost nofun, ?_,
    fun S => ?_⟩
  · rw [hsame.other S, hS]
    rintro rfl
    cases hfree.symm.trans hS
  · intro k hk
    rw [hsaved] at hk
    rcases List.mem_append.mp hk with hk | hk
    · rw [hsame.other _ (hnone k hk)]
      exact h.there k hk
    · rw [List.mem_singleton.mp hk]
      exact ⟨hcheck, hfits, by rw [hthere]; rfl⟩
  · by_cases hS : S = b.route R j
    · subst hS
      refine .inr ⟨?_, j, content, ?_, hcontent, hthere⟩
      · rcases h.news (b.route R j) with hold | ⟨hnew, _⟩
        · rw [← hold, hfree]
        · exact hnew
      · rw [hsaved, List.find?_append, List.find?_eq_none.mpr fun k hk => by simpa using hnone k hk]
        simp
    · rw [hsame.other S hS]
      exact (h.news S).imp_right fun ⟨hnew, k, content, hk, hcontent⟩ =>
        ⟨hnew, k, content, find?_savedJobs hended hk, hcontent⟩

/-- What has been left stays, and the file of the job that has ended now comes to it. -/
theorem Leaves.settle {step : Step} (h : b.Leaves R s)
    (hstep : Transfer.Settles s.disk b.folder (b.fileName j) R (b.content? j) step)
    (ho : step.progress = .ended o) (hgoes : ∀ stop, o ≠ .stopped stop)
    (hdisk : s'.disk = step.disk) (hended : s'.ended = s.ended ++ [(j, o)]) : b.Leaves R s' := by
  cases hstep with
  | present progress same check fits there =>
    cases ho.symm.trans progress
    refine h.same ?_ hended rfl nofun fun _ => ⟨check, fits, there⟩
    rw [hdisk, same]
    exact ⟨rfl, fun _ => rfl⟩
  | saved content progress whole check fits free same there =>
    cases ho.symm.trans progress
    exact h.new (hdisk ▸ same) hended check fits free whole (hdisk ▸ there)
  | failed e progress lost same =>
    cases ho.symm.trans progress
    exact h.same (hdisk ▸ same) hended rfl (fun _ => lost) nofun
  | stopped stop progress =>
    cases ho.symm.trans progress
    exact absurd rfl (hgoes stop)

section Run

variable (hidle : b.running = []) (hears : b.listener.isSome = true)
  (halone : ∀ j ∈ b.waiting, j.next = [])

include hidle hears halone

theorem Fills.begin {rest : List Job} (h : b.Fills R s) (hw : s.waiting = j :: rest) :
    b.Fills R (begin { s with waiting := rest } true j) := by
  obtain ⟨⟨disk, waiting, completed, failed, told, ended, stop, log, rfl⟩, horder, hfailures,
    hleaves⟩ := h
  obtain rfl : waiting = j :: rest := hw
  have hj : j ∈ b.waiting := by
    rw [← horder]
    exact List.mem_append_right _ (List.mem_cons_self ..)
  let t := b.transferOf j
  obtain ⟨o, ho⟩ := t.start_ends disk b.server
  obtain ⟨completed', failed', told', stop', log', hbegin, htold, hstop⟩ :=
    begin_open (s := { b with disk, waiting := rest, completed, failed, told, ended, stop, log })
      hidle (halone j hj) hears ho
  rw [hbegin]
  refine ⟨⟨_, _, _, _, _, _, _, _, rfl⟩, ?_, ?_, ?_⟩
  · rw [← horder]
    simp
  · show told'.countP _ = (ended ++ [(j, o)]).countP _
    rw [htold, List.countP_append, List.countP_singleton, ← hfailures]
    cases o.isFailed <;> rfl
  · intro hnone
    obtain ⟨hgoing, hgoes⟩ := hstop hnone
    have hleft := hleaves hgoing
    have hsettles : Transfer.Settles disk b.folder (b.fileName j) R (b.content? j)
        (t.start disk true b.server) :=
      Transfer.settles_start rfl hleft.folder (j.record.isName_fileName b.quality)
    exact hleft.settle hsettles ho hgoes rfl rfl

/-- By induction along the starts: where nothing ends the program, no job is left. -/
theorem Fills.fill (h : b.Fills R s) (hroom : 0 < b.capacity)
    (hend : (s.fill true).stop = none) :
    b.Fills R (s.fill true) ∧ (s.fill true).waiting = [] := by
  fun_induction s.fill true with
  | case1 s hw => exact ⟨h, hw⟩
  | case2 s j rest hw _ _ ih => exact ih (h.begin hidle hears halone hw) hend
  | case3 s j rest hw hfull =>
    obtain ⟨disk, waiting, completed, failed, told, ended, stop, log, rfl⟩ := h.base
    obtain rfl : stop = none := hend
    refine absurd ?_ hfull
    rw [isInterrupted, hidle]
    simpa using hroom

/-- What all the jobs have left when they have ended, if nothing has ended the program. -/
theorem fills_drain (hroom : 0 < b.capacity) (hended : b.ended = []) (htold : b.told = [])
    (hfolder : b.disk.IsFolder b.folder R) (hend : b.drain.stop = none) :
    b.Fills R b.drain ∧ b.drain.waiting = [] := by
  have hdrain : b.drain = fill { b with stop := none } true := by
    rw [drain, hidle]
    rfl
  have hstart : b.Fills R { b with stop := none } := by
    refine ⟨⟨_, _, _, _, _, _, _, _, rfl⟩, ?_, ?_, ?_⟩
    · rw [hended]
      rfl
    · rw [htold, hended]
      rfl
    · intro _
      have hnone : savedJobs { b with stop := none } = [] := by
        rw [savedJobs, hended]
        rfl
      refine ⟨rfl, hfolder, ?_, ?_, ?_, fun S => .inl rfl⟩
      · rw [hended]
        exact List.forall_mem_nil _
      · rw [hended]
        exact List.forall_mem_nil _
      · rw [hnone]
        exact List.forall_mem_nil _
  rw [hdrain] at hend ⊢
  exact hstart.fill hidle hears halone hroom hend

end Run

end Slots

end GalleryScan
