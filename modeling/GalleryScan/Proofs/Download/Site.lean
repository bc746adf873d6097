import GalleryScan.Download.Slots
import GalleryScan.Proofs.Disk.Spelling
import GalleryScan.Proofs.Download.Stepping
import GalleryScan.Proofs.Gallery.FileName

/-!
# Jobs beside each other

Every job of a run has a name of its own in one folder. What one job does to the disk leaves the
files of all others alone, so that whatever is known of one of them stays true:

> `w.Runs d r → Disk.Frame … (w.name j) … d d' → w.name r.job ≠ w.name j → w.Runs d' r`
-/

set_option autoImplicit false

namespace GalleryScan

mutual

/-- A job and, if they are heard of, all those after it. -/
def Job.family (hears : Bool) : Job → List Job
  | ⟨record, reply?, next⟩ =>
    ⟨record, reply?, next⟩ :: if hears then Job.families hears next else []

/-- Jobs and those after them. -/
def Job.families (hears : Bool) : List Job → List Job
  | [] => []
  | j :: js => j.family hears ++ Job.families hears js

end

namespace Job

theorem family_eq (hears : Bool) (j : Job) :
    j.family hears = j :: families hears (if hears then j.next else []) := by
  cases j with
  | mk record reply? next =>
    rw [family]
    cases hears <;> rfl

theorem families_eq_flatMap (hears : Bool) (js : List Job) :
    families hears js = js.flatMap (family hears) := by
  induction js with
  | nil => rfl
  | cons j js ih => rw [families, ih, List.flatMap_cons]

theorem families_append (hears : Bool) (js ks : List Job) :
    families hears (js ++ ks) = families hears js ++ families hears ks := by
  rw [families_eq_flatMap, families_eq_flatMap, families_eq_flatMap, List.flatMap_append]

theorem mem_family_self (hears : Bool) (j : Job) : j ∈ j.family hears := by
  rw [family_eq]
  exact List.mem_cons_self ..

theorem mem_families_of_mem {hears : Bool} {js : List Job} {j : Job} (h : j ∈ js) :
    j ∈ families hears js := by
  rw [families_eq_flatMap]
  exact List.mem_flatMap.mpr ⟨j, h, mem_family_self hears j⟩

end Job

/-- The jobs have different file names with a form in bytes, and whichever of their replies the
server knows beside its own, the request of each gets the reply that is its job's. None of these is
a wish to stop the program. -/
structure Job.Suit (quality : Text) (server : ImageServer) (reply : Job → ImageReply)
    (jobs : List Job) : Prop where
  distinct : (jobs.map fun j => (j.record.target quality).fileName).Nodup
  encodable : ∀ j ∈ jobs, (j.record.target quality).fileName.isEncodable = true
  answered : ∀ j ∈ jobs, ∀ known : ImageServer, (∀ a ∈ known, ∃ k ∈ jobs, k.reply? = some a) →
    (∀ a, j.reply? = some a → a ∈ known) →
    (server ++ known).replyTo (j.record.target quality).url = reply j
  ordinary : ∀ j ∈ jobs, (reply j).IsOrdinary

/-- What stays the same while the jobs of a run come and go: where their files go, what is on the
disk when they begin, and the reply to the request of each. -/
structure Site where
  folder : Text
  quality : Text
  hasBars : Bool
  /-- Is somebody told when a job has ended? -/
  hears : Bool
  disk : Disk
  /-- The route of the folder. -/
  route : Route
  server : ImageServer
  reply : Job → ImageReply

namespace Site

variable (w : Site)

/-- The download of a job. -/
def transfer (j : Job) : Transfer := j.record.transfer w.quality w.folder w.hasBars

/-- The name of a job's file. -/
def name (j : Job) : Text := (j.record.target w.quality).fileName

/-- The path of a job's file. -/
def path (j : Job) : Text := Path.join w.folder (w.name j)

/-- The content that a job's file will have, if there will be one. -/
def file? (j : Job) : Option Bytes := (w.transfer j).file? w.folder (w.name j) (w.reply j)

/-- The job's file is the entry at the end of the route. -/
def Owns (j : Job) (S : Route) : Prop :=
  Path.Fits w.folder (w.name j) ∧ S = w.route ++ [Path.onDisk (w.name j)]

/-- The jobs of a run that this is the place for. -/
structure Suits (w : Site) (jobs : List Job) : Prop
    extends Job.Suit w.quality w.server w.reply jobs where
  folder : w.disk.IsFolder w.folder w.route

/-- A job in a slot stands where it may, and nothing was under its file's name at first. -/
structure Runs (w : Site) (d : Disk) (r : Running) : Prop where
  transfer : r.transfer = w.transfer r.job
  reply : r.reply = w.reply r.job
  fresh : w.disk.at? (w.path r.job) = none
  right : (Progress.standing r.gate).Right d w.folder (w.name r.job) w.route (w.file? r.job)

/-- What there is on the disk of a job that has ended. -/
inductive Ended (w : Site) (d : Disk) (j : Job) : Outcome → Prop where
  | present (there : w.disk.at? (w.path j) ≠ none) : Ended w d j .saved
  | saved (content : Bytes) (whole : w.file? j = some content)
      (there : d.at? (w.path j) = some (.file content)) : Ended w d j .saved
  | failed (e : DownloadError) (fresh : w.disk.at? (w.path j) = none) (lost : w.file? j = none)
      (free : d.at? (w.path j) = none) : Ended w d j (.failed e)
  | cancelled (same : d.at? (w.path j) = w.disk.at? (w.path j)) : Ended w d j .cancelled

variable {w} {jobs : List Job} {d d' : Disk} {j k : Job}

/-! ## Places on a disk where the folder is -/

theorem Suits.goesTo (h : w.Suits jobs) (hd : d.IsFolder w.folder w.route) (hj : j ∈ jobs) :
    (w.transfer j).GoesTo d w.folder (w.name j) w.route := by
  have hname := Record.isName_fileName w.quality j.record
  have hcheck := Disk.checkPath_join h.folder.check (h.encodable j hj)
    (Record.null_notMem_fileName w.quality j.record)
  exact ⟨rfl, hd, hname, hcheck⟩

theorem Suits.at? (h : w.Suits jobs) (hd : d.IsFolder w.folder w.route) (hj : j ∈ jobs) :
    d.at? (w.path j) = if Path.Fits w.folder (w.name j) then
      d.entry? (w.route ++ [Path.onDisk (w.name j)]) else none :=
  (h.goesTo hd hj).at?

theorem Suits.at?_of_owns (h : w.Suits jobs) (hd : d.IsFolder w.folder w.route) (hj : j ∈ jobs)
    {S : Route} (hS : w.Owns j S) : d.at? (w.path j) = d.entry? S := by
  obtain ⟨hfits, rfl⟩ := hS
  rw [h.at? hd hj, if_pos hfits]

/-- Where the entry of a job's file is the same, so is what its path leads to. -/
theorem Suits.at?_congr (h : w.Suits jobs) (hd : d.IsFolder w.folder w.route)
    (hd' : d'.IsFolder w.folder w.route) (hj : j ∈ jobs)
    (hsame : ∀ S, w.Owns j S → d'.entry? S = d.entry? S) :
    d'.at? (w.path j) = d.at? (w.path j) := by
  rw [h.at? hd hj, h.at? hd' hj]
  by_cases hfits : Path.Fits w.folder (w.name j)
  · rw [if_pos hfits, if_pos hfits]
    exact hsame _ ⟨hfits, rfl⟩
  · rw [if_neg hfits, if_neg hfits]

theorem Suits.onDisk_name (h : w.Suits jobs) (hj : j ∈ jobs) :
    Path.onDisk (w.name j) = w.name j := Path.onDisk_of_isEncodable (h.encodable j hj)

/-- Names that differ make entries that differ. -/
theorem Suits.not_owns (h : w.Suits jobs) (hj : j ∈ jobs) (hk : k ∈ jobs)
    (hne : w.name k ≠ w.name j) {S : Route} (hS : w.Owns k S) : ¬ w.Owns j S := by
  intro hS'
  -- Both names are the last one of the route.
  have hlast := congrArg List.getLast? (hS.2.symm.trans hS'.2)
  rw [List.getLast?_concat, List.getLast?_concat, Option.some.injEq, h.onDisk_name hk,
    h.onDisk_name hj] at hlast
  exact hne hlast

/-- Names that differ make paths that differ on the disk. -/
theorem Suits.onDisk_path_ne (h : w.Suits jobs) (hj : j ∈ jobs) (hk : k ∈ jobs)
    (hne : w.name k ≠ w.name j) : Path.onDisk (w.path k) ≠ Path.onDisk (w.path j) := by
  -- All paths are the same but for the names at their ends.
  have hjoin : ∃ p : Text, ∀ i, w.path i = p ++ w.name i := by
    have habsolute : ∀ i : Job, Path.isAbsolute (w.name i) = false := by
      intro i
      exact Path.isAbsolute_of_isName (Record.isName_fileName w.quality i.record)
    by_cases hend : w.folder = [] ∨ w.folder.getLast? = some Path.slash
    · refine ⟨w.folder, ?_⟩
      intro i
      rw [path, Path.join, habsolute i, if_neg (by decide), if_pos hend]
    · refine ⟨w.folder ++ [Path.slash], ?_⟩
      intro i
      rw [path, Path.join, habsolute i, if_neg (by decide), if_neg hend, List.append_assoc]
      rfl
  obtain ⟨p, hp⟩ := hjoin
  rw [hp, hp]
  intro hsame
  exact hne (Path.onDisk_append_injective (h.encodable k hk) (h.encodable j hj) hsame)

/-! ## What another job does -/

section Frame

variable (h : w.Suits jobs) (hd : d.IsFolder w.folder w.route)
  (hd' : d'.IsFolder w.folder w.route)
  (hframe : Disk.Frame w.folder (w.name j) w.route d d') (hj : j ∈ jobs)

include h hd hd' hframe hj

theorem Suits.at?_frame (hk : k ∈ jobs) (hne : w.name k ≠ w.name j) :
    d'.at? (w.path k) = d.at? (w.path k) :=
  h.at?_congr hd hd' hk fun S hS => hframe.other S (h.not_owns hj hk hne hS)

theorem Suits.runs_frame {r : Running} (hr : r.job ∈ jobs) (hne : w.name r.job ≠ w.name j)
    (hruns : w.Runs d r) : w.Runs d' r := by
  have hat := h.at?_frame hd hd' hframe hj hr hne
  refine ⟨hruns.transfer, hruns.reply, hruns.fresh, ?_⟩
  generalize hgate : Progress.standing r.gate = progress
  have hright := hruns.right
  rw [hgate] at hright
  cases hright with
  | answer free => exact .answer (hat.trans free)
  | body got rest break? file holds whole =>
    refine .body got rest break? file ?_ whole
    obtain ⟨sent, hsent, hposition⟩ := holds.sent
    have hleads := hd'.leads holds.leads.name holds.fits
    refine ⟨hleads, holds.check, holds.named, sent, ?_, hposition⟩
    rw [hframe.other _ (h.not_owns hj hr hne ⟨holds.fits, rfl⟩)]
    exact hsent
  | saved content whole there => cases hgate
  | failed e lost free => cases hgate
  | cancelled free => cases hgate

theorem Suits.ended_frame {o : Outcome} (hk : k ∈ jobs) (hne : w.name k ≠ w.name j)
    (hended : w.Ended d k o) : w.Ended d' k o := by
  have hat := h.at?_frame hd hd' hframe hj hk hne
  cases hended with
  | present there => exact .present there
  | saved content whole there => exact .saved content whole (hat.trans there)
  | failed e fresh lost free => exact .failed e fresh lost (hat.trans free)
  | cancelled same => exact .cancelled (hat.trans same)

end Frame

end Site

end GalleryScan
