import GalleryScan.Proofs.Cache.Resaving
import GalleryScan.Proofs.Download.Filling
import GalleryScan.Proofs.Scan.Replay

/-!
# What a whole scan does to the disk

Before its downloads and behind them a scan changes nothing on the disk but cache files; while it
looks at items it only submits jobs. So on the way through a scan that is done, new files other than
cache files come from its downloads, all of which have ended:

> `Disk.ButCaches d b.disk ∧ b.Fills R b.drain ∧ Disk.ButCaches b.drain.disk s.disk`

where `b` are the slots with all the jobs that were submitted. Whatever the limit is, the items that
were looked at are the first ones of those that were offered.

The `Stages` of a scan that is done are the states between its parts, and `Leaves` says what comes
of them: every image that was saved has its file, and every new file has the image of the first job
that leads to it.
-/

set_option autoImplicit false

namespace GalleryScan

/-! ## Cache files -/

/-- The second disk differs from the first one at most in cache files. -/
structure Disk.ButCaches (d d' : Disk) : Prop where
  here : d'.here = d.here
  folders : ∀ T, d.entry? T = some .folder → d'.entry? T = some .folder
  other : ∀ T n, n ≠ Cache.fileName → d'.entry? (T ++ [n]) = d.entry? (T ++ [n])

theorem Disk.ButCaches.refl (d : Disk) : Disk.ButCaches d d := ⟨rfl, fun _ h => h, fun _ _ _ => rfl⟩

theorem Disk.ButCaches.trans {d d' d'' : Disk} (h : Disk.ButCaches d d')
    (h' : Disk.ButCaches d' d'') : Disk.ButCaches d d'' where
  here := h'.here.trans h.here
  folders T hT := h'.folders T (h.folders T hT)
  other T n hn := (h'.other T n hn).trans (h.other T n hn)

theorem Cache.butCaches_save (c : Cache) (d : Disk) : Disk.ButCaches d (c.save d).2.1 := by
  rcases c.save_cases d with hfails | ⟨content, R, S, hsavable⟩
  · rw [hfails]
    exact .refl d
  · rw [hsavable.save]
    refine ⟨rfl, fun T hT => Disk.folder_put hsavable.noFolder _ hT, fun T n hn => ?_⟩
    apply Disk.entry?_put_other
    intro hroute
    exact hn (List.singleton_inj.mp (List.append_inj' hroute rfl).2)

/-- What is in the cache file can be saved again, and is there even if that fails. -/
theorem Cache.Stored.save {c fresh : Cache} {d : Disk} {S : Route} {content : Bytes}
    (h : fresh.Stored c.entries S content d) (hfolder : c.folder = fresh.folder)
    (hsound : c.entries.Sound) :
    ∃ S content, fresh.Stored c.entries S content (c.save d).2.1 := by
  rcases c.save_cases d with hfails | ⟨content, R, S, hsavable⟩
  · rw [hfails]
    exact ⟨S, _, h⟩
  · refine stored_of_save hfolder hsound (allSaved_save_iff.mpr ?_)
    rw [hsavable.save]

namespace Scan

variable {s s' s₀ : Scan} {cursor c : Option Text} {p : Page} {pages : List Page}
  {seen : List Record} {r : Record}

/-! ## Jobs that are submitted -/

/-- On the way to the second scan jobs for records have been submitted, and nothing has happened to
the disk but to cache files. -/
structure Gathers (s s' : Scan) : Prop where
  assignment : s'.assignment = s.assignment
  files : s'.cache.files = s.cache.files
  slots : ∃ disk waiting submitted log,
    s'.slots = { s.slots with disk, waiting, submitted, log }
  jobs : ∃ rs : List Record, s'.slots.waiting = s.slots.waiting ++ rs.map Record.job
  disk : Disk.ButCaches s.disk s'.disk

theorem gathers_of_slots {log : Log} (hassignment : s'.assignment = s.assignment)
    (hfiles : s'.cache.files = s.cache.files) (h : s'.slots = { s.slots with log }) :
    s.Gathers s' where
  assignment := hassignment
  files := hfiles
  slots := ⟨_, _, _, _, h⟩
  jobs := ⟨[], by rw [h, List.map_nil, List.append_nil]⟩
  disk := by
    rw [Scan.disk, Scan.disk, h]
    exact .refl _

theorem Gathers.trans {s'' : Scan} (h : s.Gathers s') (h' : s'.Gathers s'') : s.Gathers s'' where
  assignment := h'.assignment.trans h.assignment
  files := h'.files.trans h.files
  slots := by
    obtain ⟨_, _, _, _, hslots⟩ := h.slots
    obtain ⟨disk, waiting, submitted, log, hslots'⟩ := h'.slots
    exact ⟨disk, waiting, submitted, log, by rw [hslots', hslots]⟩
  jobs := by
    obtain ⟨rs, hrs⟩ := h.jobs
    obtain ⟨rs', hrs'⟩ := h'.jobs
    exact ⟨rs ++ rs', by rw [hrs', hrs, List.map_append, List.append_assoc]⟩
  disk := h.disk.trans h'.disk

theorem gathers_take (s : Scan) (k : Key) (r : Record) : s.Gathers (s.take k r) := by
  unfold take
  dsimp only
  split
  · exact gathers_of_slots rfl rfl rfl
  · refine ⟨rfl, rfl, ⟨s.slots.disk, s.slots.waiting ++ [r.job], s.slots.submitted + 1,
      s.slots.log, ?_⟩, ⟨[r], rfl⟩, .refl _⟩
    show s.slots.enqueue r.job = _
    rw [Slots.enqueue, show r.job.reply?.toList = [] from rfl, List.append_nil]

theorem gathers_look (s : Scan) (r : Record) : s.Gathers (s.look r).1 := by
  have hscan : s.Gathers s.glance := gathers_of_slots rfl rfl rfl
  rcases look_cases s r with ⟨result, hr⟩ | ⟨t, hr⟩ | ⟨k, hr⟩
  · rwa [hr]
  · rw [hr]
    exact hscan.trans (gathers_of_slots rfl rfl rfl)
  · rw [hr]
    exact hscan.trans (gathers_take _ _ _)

theorem gathers_lookAll (s : Scan) (items : List Record) : s.Gathers (s.lookAll items).1 :=
  lookAll_keeps (fun t r _ ht => ht.trans (gathers_look t r)) (gathers_of_slots rfl rfl rfl)

theorem gathers_save (s : Scan) : s.Gathers s.save := by
  rw [save_eq]
  exact ⟨rfl, rfl, ⟨_, _, _, _, rfl⟩, ⟨[], (List.append_nil _).symm⟩,
    s.cache.butCaches_save s.disk⟩

theorem gathers_takePage (s : Scan) (p : Page) : s.Gathers (s.takePage p).1 := by
  unfold takePage Cache.insertAll
  cases s.cache.entries.insertAll p.items with
  | mk entries result =>
    have hcached : s.Gathers { s with cache := { s.cache with entries } } :=
      gathers_of_slots rfl rfl rfl
    cases result with
    | error fault => exact hcached
    | ok _ => exact (hcached.trans (gathers_save _)).trans (gathers_lookAll _ p.items)

theorem gathers_fetch (s : Scan) (cursor : Option Text) : s.Gathers (s.fetch cursor).1 :=
  gathers_of_slots rfl rfl rfl

theorem gathers_arrived (s : Scan) (cursor : Option Text) (p : Page) :
    s.Gathers (s.arrived cursor p) := gathers_of_slots rfl rfl rfl

theorem TakesIn.gathers (h : TakesIn s cursor p s') : s.Gathers s' := by
  have htaken := gathers_takePage (s.arrived cursor p) p
  rw [h.taken] at htaken
  exact (gathers_arrived s cursor p).trans htaken

theorem Course.gathers {result : Except FetchStop Unit} (h : Course s cursor pages s' result) :
    s.Gathers s' := by
  induction h with
  | full limit => exact gathers_of_slots rfl rfl rfl
  | failed e goes fetched => exact gathers_fetch _ _
  | noImages p goes fetched first empty =>
    exact (gathers_arrived _ _ p).trans (gathers_of_slots rfl rfl rfl)
  | @noKey s s₃ cursor p fault goes fetched taken =>
    have htaken := gathers_takePage (s.arrived cursor p) p
    rw [taken] at htaken
    exact (gathers_arrived s cursor p).trans htaken
  | last p first isLast => exact first.gathers
  | more first more rest ih => exact first.gathers.trans ih

theorem gathers_lookThrough (s : Scan) : s.Gathers s.lookThrough.1 := by
  cases hoffline : s.assignment.offline with
  | true =>
    have hall := gathers_lookAll s s.cache.records
    rw [lookThrough, if_pos hoffline]
    split
    · rename_i hresult
      rwa [hresult] at hall
    · rename_i hresult
      rwa [hresult] at hall
  | false =>
    obtain ⟨pages, hcourse⟩ := exists_course s none
    rw [lookThrough_online hoffline]
    exact hcourse.gathers

/-! ## What has been looked at -/

/-- The items that a scan is offered: the cached ones, or those of the pages that its replies
deliver. -/
def Offers (s : Scan) (items : List Record) : Prop :=
  if s.assignment.offline then items = s.cache.records
  else ∃ pages, Delivers s.assignment none s.replies pages ∧ items = itemsOf pages

/-- After the items `seen` the scan has looked at the first ones of these, and at all of them unless
it has as many matches as asked for. -/
def LooksOn (s : Scan) (seen items : List Record) : Prop :=
  ∃ more, more <+: items ∧ s.Counted (seen ++ more) ∧ (more = items ∨ s.isLimitReached = true)

theorem LooksOn.full (h : s.Counted seen) (hlimit : s.isLimitReached = true)
    (items : List Record) : s.LooksOn seen items :=
  ⟨[], List.nil_prefix, by rwa [List.append_nil], .inr hlimit⟩

theorem LooksOn.nothing (h : s.Counted seen) : s.LooksOn seen [] :=
  ⟨[], List.prefix_rfl, by rwa [List.append_nil], .inl rfl⟩

/-- An item that the scan gets past has been counted, whether it has a key or not. -/
theorem Counted.look_ok (h : s.Counted seen) (hlook : s.look r = (s', .ok ())) :
    s'.Counted (seen ++ [r]) := by
  by_cases haccepts : s.assignment.filter.accepts r.prompt = true
  · cases hkey : Key.of? r.id with
    | ok k =>
      obtain ⟨s'', hlook', hs''⟩ := h.look hkey
      rw [hlook] at hlook'
      cases hlook'
      exact hs''
    | error fault =>
      rw [Scan.look] at hlook
      dsimp only at hlook
      rw [if_neg (by simpa using haccepts), hkey] at hlook
      cases hlook
  · rw [Scan.look] at hlook
    dsimp only at hlook
    rw [if_pos (by simpa using haccepts)] at hlook
    cases hlook
    exact h.glance fun hnew => haccepts hnew.1

/-- The stages of a scan that is done: it was prepared, it had looked at everything, and all that it
had submitted has ended. -/
structure Stages (s s₀ s₁ s₂ s' : Scan) : Prop where
  prepared : s.prepare = (s₀, .ok ())
  looked : lookThrough { s₀ with phase := .scanning } = (s₁, .ok ())
  drained : s₁.drain = (s₂, .ok ())
  done : s' = { s₂.save with phase := .done }

theorem exists_stages (h : s.run = (s', .ok ())) : ∃ s₀ s₁ s₂, Stages s s₀ s₁ s₂ s' := by
  obtain ⟨s₀, hprepare⟩ := exists_prepare h
  cases hlook : lookThrough { s₀ with phase := .scanning } with
  | mk s₁ result =>
    have hfinish := finish_run hprepare hlook
    rw [h] at hfinish
    cases hfinish with
    | done drained => exact ⟨s₀, s₁, _, hprepare, hlook, drained, rfl⟩

/-- What the downloads of a scan that is done have left, since the scan found the disk `d`: as
`Slots.Leaves` has it, but for the cache file. -/
structure Leaves (d : Disk) (R : Route) (s : Scan) : Prop where
  here : s.disk.here = d.here
  folders : ∀ T, d.entry? T = some .folder → s.disk.entry? T = some .folder
  there : ∀ j ∈ s.slots.savedJobs,
    Disk.checkPath (Path.join s.slots.folder (s.slots.fileName j)) = .ok ()
      ∧ Path.Fits s.slots.folder (s.slots.fileName j)
      ∧ (s.disk.entry? (s.slots.route R j)).isSome = true
  news : ∀ n, n ≠ Cache.fileName → s.disk.entry? (R ++ [n]) = d.entry? (R ++ [n])
    ∨ d.entry? (R ++ [n]) = none ∧ ∃ j content,
      s.slots.savedJobs.find? (s.slots.route R · = R ++ [n]) = some j
        ∧ s.slots.content? j = some content ∧ s.disk.entry? (R ++ [n]) = some (.file content)

section Stages

variable {a : Assignment} {fresh : Cache} {quality : Text} {concurrency : Int}
  {replies : List ListingReply} {images : ImageServer} {disk : Disk} {s₁ s₂ : Scan} {R : Route}

theorem Stages.gathers (h : Stages s s₀ s₁ s₂ s') :
    Gathers { s₀ with phase := .scanning } s₁ := by
  have hgathers := gathers_lookThrough { s₀ with phase := .scanning }
  rwa [h.looked] at hgathers

variable (h : Stages (start a fresh quality concurrency replies images disk) s₀ s₁ s₂ s')

include h

theorem Stages.start_eq : ∃ disk' waiting submitted log, s₁.slots
      = { Slots.empty fresh.folder quality a.hasBars concurrency (some onEnd) images disk' with
          waiting, submitted, log }
    ∧ Disk.ButCaches (disk.makeFolders fresh.folder).1 disk' := by
  obtain ⟨disk₀, log₀, cache₀, files₀, hfolders, _, _, _, rfl⟩ := prepare_eq_ok h.prepared
  rw [show disk.makeFolders fresh.folder = (disk₀, .ok ()) from hfolders]
  obtain ⟨disk', waiting, submitted, log, hslots⟩ := h.gathers.slots
  have hcaches : Disk.ButCaches disk₀ s₁.disk := h.gathers.disk
  rw [show s₁.disk = disk' by rw [Scan.disk, hslots]] at hcaches
  exact ⟨disk', waiting, submitted, log, hslots, hcaches⟩

/-- What has been submitted are jobs for records, without others after them. -/
theorem Stages.exists_records : ∃ rs : List Record, s₁.slots.waiting = rs.map Record.job := by
  obtain ⟨disk₀, log₀, cache₀, files₀, _, _, _, _, rfl⟩ := prepare_eq_ok h.prepared
  exact h.gathers.jobs

theorem Stages.fills (hfolder : (disk.makeFolders fresh.folder).1.IsFolder fresh.folder R) :
    s₁.slots.Fills R s₂.slots ∧ s₂.slots.waiting = [] := by
  obtain ⟨rs, hrs⟩ := h.exists_records
  obtain ⟨disk', waiting, submitted, log, hslots, hcaches⟩ := h.start_eq
  have hstop := stop_of_drain h.drained
  rw [slots_of_drain h.drained] at hstop ⊢
  have halone : ∀ j ∈ s₁.slots.waiting, j.next = [] := by
    intro j hj
    rw [hrs] at hj
    obtain ⟨r, _, rfl⟩ := List.mem_map.mp hj
    rfl
  rw [hslots] at hstop halone ⊢
  have hroom : 0 < Slots.capacityFor concurrency := by
    rw [Slots.capacityFor]
    omega
  exact Slots.fills_drain rfl rfl halone hroom rfl rfl (hfolder.mono hcaches.here hcaches.folders)
    hstop

theorem Stages.end_eq (hfills : s₁.slots.Fills R s₂.slots) :
    ∃ disk' waiting completed failed told stop log, s'.slots
      = { s₁.slots with
          disk := disk', waiting, completed, failed, told, ended := s₂.slots.ended, stop,
          log } := by
  obtain ⟨disk', waiting, completed, failed, told, ended, stop, log, hslots⟩ := hfills.base
  have hsaved : s'.slots = { s₂.slots with
      disk := (s₂.cache.save s₂.disk).2.1, log := s₂.log ++ (s₂.cache.save s₂.disk).1 } := by
    rw [h.done]
    rfl
  rw [hsaved, hslots]
  exact ⟨_, _, _, _, _, _, _, rfl⟩

/-- What the scan does to the disk besides its downloads does not show outside the cache file. -/
theorem Stages.leaves (hfolder : (disk.makeFolders fresh.folder).1.IsFolder fresh.folder R) :
    s'.Leaves (disk.makeFolders fresh.folder).1 R := by
  obtain ⟨hfills, _⟩ := h.fills hfolder
  have hleaves := hfills.leaves (stop_of_drain h.drained)
  obtain ⟨disk₁, _, _, _, hslots, hbefore⟩ := h.start_eq
  have hdisk : s₁.slots.disk = disk₁ := by
    rw [hslots]
    rfl
  have hafter : Disk.ButCaches s₂.slots.disk s'.disk := by
    rw [h.done]
    exact s₂.cache.butCaches_save s₂.disk
  obtain ⟨disk', waiting, completed, failed, told, stop, log, hend⟩ := h.end_eq hfills
  have hsaved : s'.slots.savedJobs = s₂.slots.savedJobs := by
    rw [hend]
    rfl
  have hroute : s'.slots.route R = s₁.slots.route R := by
    rw [hend]
    rfl
  have hother : ∀ n, n ≠ Cache.fileName →
      s'.disk.entry? (R ++ [n]) = s₂.slots.disk.entry? (R ++ [n]) := hafter.other R
  refine ⟨?_, fun T hT => hafter.folders T ?_, fun j hj => ?_, fun n hn => ?_⟩
  · rw [hafter.here, hleaves.here, hdisk, hbefore.here]
  · -- A folder has no place for a file.
    have hT₁ := hbefore.folders T hT
    rw [← hdisk] at hT₁
    rcases hleaves.news T with hold | ⟨hnew, _⟩
    · rw [hold, hT₁]
    · cases hT₁.symm.trans hnew
  · rw [hsaved] at hj
    obtain ⟨hcheck, hfits, hthere⟩ := hleaves.there j hj
    have hname : Path.onDisk (s₁.slots.fileName j) ≠ Cache.fileName :=
      j.record.onDisk_fileName_ne s₁.slots.quality
    rw [hroute, Slots.route, hother _ hname, hend]
    exact ⟨hcheck, hfits, hthere⟩
  · rw [hother n hn, hsaved, hroute, ← hbefore.other R n hn, ← hdisk]
    refine (hleaves.news (R ++ [n])).imp_right fun ⟨hnew, j, content, hj, hcontent, hentry⟩ =>
      ⟨hnew, j, content, hj, ?_, hentry⟩
    rw [hend]
    exact hcontent

end Stages

end Scan

end GalleryScan
