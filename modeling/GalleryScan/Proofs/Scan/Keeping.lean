import GalleryScan.Proofs.Cache.Overlay
import GalleryScan.Proofs.Cache.RoundTrip
import GalleryScan.Proofs.Download.Beside
import GalleryScan.Proofs.Json.Real
import GalleryScan.Proofs.Listing.Fetched
import GalleryScan.Proofs.Scan.Course
import GalleryScan.Proofs.Scan.Selection

/-!
# Nothing that was fetched is lost

As long as no save has failed, the cache file holds at every request for a page, and at the end of
the scan, what it held at the start with all items of all pages so far laid over it, matches or not:

> `Overlaid E₀ (itemsOf pages) es ∧ fresh.Yields disk es`

Each page is saved before its items are looked at, so what the limit leaves out is in the file as
well; and downloads leave the file alone, so a scan that could not fetch a page, which saves first
and downloads then, ends with the same file.
-/

set_option autoImplicit false

namespace GalleryScan

/-- The report of a save that failed. -/
def Event.isFailedSave : Event → Bool
  | .line t => (Text.ofString "[!] Failed to save metadata: ").isPrefixOf t
  | _ => false

/-- No save has failed. -/
def Log.AllSaved (log : Log) : Prop := ∀ e ∈ log, e.isFailedSave = false

theorem Log.allSaved_iff {log : Log} : log.AllSaved ↔ log.any Event.isFailedSave = false := by
  rw [List.any_eq_false]
  exact forall₂_congr fun e _ => Bool.eq_false_iff

theorem Log.AllSaved.of_front {l l' : Log} (h : l'.AllSaved) (hl : l <+: l') : l.AllSaved :=
  fun e he => h e (hl.subset he)

namespace Cache

/-! ## What is in the cache file -/

/-- Whoever loads the cache from the disk gets these entries. -/
def Yields (c : Cache) (d : Disk) (es : Entries) : Prop :=
  ∃ log, c.load d = (log, { c with entries := es }, .ok ())

/-- The cache file is there, at the end of the route, and these entries are written in it. -/
structure Stored (c : Cache) (es : Entries) (S : Route) (content : Bytes) (d : Disk) : Prop where
  file : d.AtName c.folder fileName S (some (.file content))
  check : Disk.checkPath c.path = .ok ()
  document : content.document = .ok es.document

variable {c fresh : Cache} {d : Disk} {es : Entries} {S : Route} {content : Bytes}

theorem Stored.read (h : fresh.Stored es S content d) : d.read fresh.path = .ok content :=
  h.file.leads.read h.check h.file.entry

theorem Stored.document_eq (h : fresh.Stored es S content d) :
    d.document fresh.path = .ok es.document := by
  rw [Disk.document, h.read]
  exact h.document

theorem Stored.yields (h : fresh.Stored es S content d) (hsound : es.Sound) :
    fresh.Yields d es := by
  have hentries : ({ fresh with entries := es } : Cache).entries.Sound := hsound
  exact load_of_document (Disk.hasEntry_of_read h.read) h.read hentries h.document

/-- A save reports a failure just if it has failed. -/
theorem allSaved_save_iff : (c.save d).1.AllSaved ↔ (c.save d).2.2 = true := by
  unfold save
  split
  · exact ⟨fun _ => rfl, fun _ => List.forall_mem_nil _⟩
  · constructor
    · intro h
      have hreport := h _ (List.mem_singleton_self _)
      rw [Event.isFailedSave, List.isPrefixOf_iff_prefix.mpr (List.prefix_append ..)] at hreport
      cases hreport
    · intro h
      cases h

theorem write_of_allSaved (h : (c.save d).1.AllSaved) : ∃ d', c.write d = (d', .ok ()) := by
  have hok := allSaved_save_iff.mp h
  unfold save at hok
  split at hok
  · rename_i d' hwrite
    exact ⟨d', hwrite⟩
  · cases hok

/-- A save that has not failed has written the entries. -/
theorem stored_of_save (hfolder : c.folder = fresh.folder) (hsound : c.entries.Sound)
    (hsaved : (c.save d).1.AllSaved) :
    ∃ S content, fresh.Stored c.entries S content (c.save d).2.1 := by
  obtain ⟨d', hwrite⟩ := write_of_allSaved hsaved
  obtain ⟨content, R, S, hsavable⟩ := savable_of_write hwrite
  have hsave : (c.save d).2.1 = d.put (S ++ [fileName]) (.file content) := by
    rw [save, hsavable.write]
  have hpath : fresh.path = c.path := congrArg (Path.join · fileName) hfolder.symm
  rw [hsave]
  refine ⟨S, content, ⟨?_, ?_⟩, ?_, ?_⟩
  · rw [← hfolder]
    exact hsavable.again.file
  · rw [onDisk_fileName]
    exact Disk.entry?_put_self hsavable.noFolder _
  · rw [hpath]
    exact hsavable.filePath
  · exact hsavable.document hsound fun y _ => Json.readsBack y

end Cache

namespace Scan

/-! ## What a scan has in hand -/

/-- The scan is for the folder of the cache, no download is under way, and its entries are those
before with the items of these pages laid over them. -/
structure Holds (fresh : Cache) (E₀ : Entries) (prior : List Page) (s : Scan) : Prop where
  folder : s.cache.folder = fresh.folder
  slots : s.slots.folder = fresh.folder
  idle : s.slots.running = []
  listener : s.slots.listener = some onEnd
  pages : s.pages = prior.length
  overlaid : Entries.Overlaid E₀ (itemsOf prior) s.cache.entries
  sound : s.cache.entries.Sound

variable {s s' t : Scan} {cursor c : Option Text} {p : Page} {pages prior : List Page}
  {r : Except FetchStop Unit} {fresh : Cache} {E₀ : Entries}

theorem Holds.rests (h : s.Holds fresh E₀ prior) (hrests : Rests s s') (hsteady : Steady s s') :
    s'.Holds fresh E₀ prior where
  folder := by rw [hrests.cache, h.folder]
  slots := hrests.folder.trans h.slots
  idle := hrests.running.trans h.idle
  listener := hsteady.listener.trans h.listener
  pages := hsteady.pages.trans h.pages
  overlaid := by
    rw [hrests.cache]
    exact h.overlaid
  sound := by
    rw [hrests.cache]
    exact h.sound

theorem Holds.save (h : s.Holds fresh E₀ prior) : s.save.Holds fresh E₀ prior := { h with }

theorem Holds.stored_save (h : s.Holds fresh E₀ prior) (hsaved : s.save.log.AllSaved) :
    ∃ S content, fresh.Stored s.cache.entries S content s.save.disk :=
  Cache.stored_of_save h.folder h.sound fun e he => hsaved e (List.mem_append_right _ he)

/-! ## One page more -/

/-- The items of a page are set, then comes the save, and then nothing that changes cache or
disk. -/
theorem TakesIn.saves (h : TakesIn s cursor p s') (hs : s.Holds fresh E₀ prior) :
    ∃ s₂ : Scan, s₂.Holds fresh E₀ (prior ++ [p]) ∧ Rests s₂.save s' ∧ Steady s₂.save s' := by
  obtain ⟨es, hes, hlook⟩ := takePage_eq_ok h.taken
  have hsound := hs.sound.insertAll (decoded_of_fetchFrom h.fetched)
  rw [show s.cache.entries.insertAll p.items = (es, .ok ()) from hes] at hsound
  let s₂ : Scan := { s.arrived cursor p with cache := { s.cache with entries := es } }
  have hs₂ : s₂.Holds fresh E₀ (prior ++ [p]) := by
    refine ⟨hs.folder, hs.slots, hs.idle, hs.listener, ?_, ?_, hsound⟩
    · rw [List.length_append, ← hs.pages]
      rfl
    · rw [itemsOf_append, itemsOf_singleton]
      exact hs.overlaid.insertAll hes
  have hrests := rests_lookAll s₂.save p.items
  have hsteady := steady_lookAll s₂.save p.items
  rw [show s₂.save.lookAll p.items = (s', .ok ()) from hlook] at hrests hsteady
  exact ⟨s₂, hs₂, hrests, hsteady⟩

theorem TakesIn.holds (h : TakesIn s cursor p s') (hs : s.Holds fresh E₀ prior) :
    s'.Holds fresh E₀ (prior ++ [p]) := by
  obtain ⟨s₂, hs₂, hrests, hsteady⟩ := h.saves hs
  exact hs₂.save.rests hrests hsteady

/-- Where no save has failed, the one of this page has not. -/
theorem TakesIn.stored (h : TakesIn s cursor p s') (hs : s.Holds fresh E₀ prior)
    (hsaved : s'.log.AllSaved) :
    ∃ S content, fresh.Stored s'.cache.entries S content s'.disk := by
  obtain ⟨s₂, hs₂, hrests, _⟩ := h.saves hs
  rw [hrests.cache, hrests.disk]
  exact hs₂.stored_save (hsaved.of_front hrests.log.front)

/-! ## All pages -/

/-- By induction on the pages. -/
theorem Passes.holds (h : Passes s cursor pages t c) (hs : s.Holds fresh E₀ prior) :
    t.Holds fresh E₀ (prior ++ pages) := by
  induction h generalizing prior with
  | here s cursor => rwa [List.append_nil]
  | @on s s₁ t cursor c p pages first more rest ih =>
    have ht := ih (first.holds hs)
    rwa [List.append_assoc] at ht

/-- The last of the pages has been saved with all before it. -/
theorem Passes.stored (h : Passes s cursor pages t c) (hs : s.Holds fresh E₀ prior)
    (hpages : pages ≠ []) (hsaved : t.log.AllSaved) :
    ∃ S content, fresh.Stored t.cache.entries S content t.disk := by
  induction h generalizing prior with
  | here s cursor => exact absurd rfl hpages
  | on first more rest ih =>
    cases rest with
    | here => exact first.stored hs hsaved
    | on next more' rest' => exact ih (first.holds hs) (List.cons_ne_nil _ _) hsaved

/-- However the loop leaves off, unless something ends the program. -/
theorem Course.holds (h : Course s cursor pages s' r) (hs : s.Holds fresh E₀ prior)
    (hr : ∀ stop, r ≠ .error (.stop stop)) : s'.Holds fresh E₀ (prior ++ pages) := by
  induction h generalizing prior with
  | full limit => rwa [List.append_nil]
  | failed e goes fetched =>
    rw [List.append_nil]
    exact { hs with }
  | noImages p goes fetched first empty =>
    refine ⟨hs.folder, hs.slots, hs.idle, hs.listener, ?_, ?_, hs.sound⟩
    · rw [List.length_append, ← hs.pages]
      rfl
    · rw [itemsOf_append, itemsOf_singleton, empty, List.append_nil]
      exact hs.overlaid
  | noKey p fault goes fetched taken => exact absurd rfl (hr _)
  | last p first isLast => exact first.holds hs
  | more first more rest ih =>
    have hs' := ih (first.holds hs) hr
    rwa [List.append_assoc] at hs'

/-! ## Before and after the pages -/

theorem load_eq (c : Cache) (d : Disk) :
    (c.load d).2.1 = { c with entries := (c.load d).2.1.entries } := by
  unfold Cache.load
  dsimp only
  repeat' split
  all_goals rfl

theorem holds_of_prepare {a : Assignment} {quality : Text} {concurrency : Int}
    {replies : List ListingReply} {images : ImageServer} {disk : Disk} {s₀ : Scan}
    (h : (start a fresh quality concurrency replies images disk).prepare = (s₀, .ok ())) :
    let E₀ := (fresh.load (disk.makeFolders fresh.folder).1).2.1.entries
    Holds fresh E₀ [] { s₀ with phase := .scanning } ∧ fresh.Yields s₀.disk s₀.cache.entries := by
  obtain ⟨disk₀, log₀, cache₀, files₀, hfolders, hload, _, _, rfl⟩ := prepare_eq_ok h
  rw [show disk.makeFolders fresh.folder = (disk₀, .ok ()) from hfolders]
  have hfolder := Cache.folder_load fresh disk₀
  have hsound := Cache.sound_load fresh disk₀
  have hcache := load_eq fresh disk₀
  rw [show fresh.load disk₀ = (log₀, cache₀, .ok ()) from hload] at hfolder hsound hcache ⊢
  refine ⟨⟨hfolder, rfl, rfl, rfl, rfl, Entries.overlaid_nil _, hsound⟩, log₀, ?_⟩
  rw [← hcache]
  exact hload

theorem requests_prepare (s : Scan) : (s.prepare).1.log.pageRequests = s.log.pageRequests := by
  have hsay : ∀ (s : Scan) (log : Log), log.pageRequests = [] →
      (s.say log).log.pageRequests = s.log.pageRequests :=
    fun s log h => (rests_say s h).log.requests
  unfold prepare
  split
  · rfl
  rename_i disk _
  dsimp only
  have hlog := pageRequests_load (s.withDisk disk).cache (s.withDisk disk).disk
  split
  all_goals
    rename_i hload
    rw [hload] at hlog
  · exact hsay _ _ hlog
  · exact hsay _ _ hlog
  · repeat' split
    all_goals exact hsay _ _ hlog

theorem drain_eq (s : Scan) : (s.drain).1.cache = s.cache ∧ (s.drain).1.pages = s.pages := by
  unfold drain
  split
  · exact ⟨rfl, rfl⟩
  · dsimp only
    split <;> exact ⟨rfl, rfl⟩

theorem grows_drain (h : s.slots.listener = some onEnd) : s.log.Grows (s.drain).1.log := by
  refine ⟨?_, (drain_counts h).2.2⟩
  unfold drain
  split
  · exact List.prefix_rfl
  · dsimp only
    split <;> exact s.slots.log_drain

/-- The downloads leave the cache file alone. -/
theorem Holds.stored_drain {es : Entries} {S : Route} {content : Bytes}
    (h : s.Holds fresh E₀ prior) (hstored : fresh.Stored es S content s.disk) :
    fresh.Stored es S content (s.drain).1.disk := by
  have hdrained := Slots.atName_drain h.slots h.idle hstored.file
  refine ⟨?_, hstored.check, hstored.document⟩
  unfold drain
  split
  · exact hstored.file
  · dsimp only
    split <;> exact hdrained

theorem prepare_ne_fetch (s : Scan) (e : FetchError) : (s.prepare).2 ≠ .error (.fetch e) := by
  intro h
  unfold prepare at h
  split at h
  · cases h
  dsimp only at h
  split at h
  · cases h
  · cases h
  split at h
  · cases h
  split at h
  · cases h
  split at h <;> cases h

/-- What comes after the pages, whether these have come to their end or a page could not be
fetched. -/
inductive Finish (s : Scan) : Except FetchStop Unit → Scan → Except ScanStop Unit → Prop where
  | stopped (stop : Stop) : Finish s (.error (.stop stop)) s (.error (.stop stop))
  | notAborted {s' : Scan} (e : FetchError) (stop : Stop)
      (drained : s.save.drain = (s', .error stop)) :
      Finish s (.error (.error e)) s' (.error (.stop stop))
  | aborted {s' : Scan} (e : FetchError) (drained : s.save.drain = (s', .ok ())) :
      Finish s (.error (.error e)) { s' with phase := .aborted } (.error (.fetch e))
  | notDone {s' : Scan} (stop : Stop) (drained : s.drain = (s', .error stop)) :
      Finish s (.ok ()) s' (.error (.stop stop))
  | done {s' : Scan} (drained : s.drain = (s', .ok ())) :
      Finish s (.ok ()) { s'.save with phase := .done } (.ok ())

theorem finish_run {s₀ s₁ : Scan} (hprepare : s.prepare = (s₀, .ok ()))
    (hlook : lookThrough { s₀ with phase := .scanning } = (s₁, r)) :
    Finish s₁ r (s.run).1 (s.run).2 := by
  unfold run
  rw [hprepare]
  dsimp only
  rw [hlook]
  cases r with
  | error e =>
    cases e with
    | stop stop => exact .stopped stop
    | error e =>
      dsimp only
      cases hdrain : s₁.save.drain with
      | mk s₂ result =>
        cases result with
        | error stop => exact .notAborted e stop hdrain
        | ok _ => exact .aborted e hdrain
  | ok _ =>
    dsimp only
    cases hdrain : s₁.drain with
    | mk s₂ result =>
      cases result with
      | error stop => exact .notDone stop hdrain
      | ok _ => exact .done hdrain

/-- After the pages no page is asked for. -/
theorem Finish.grows {result : Except ScanStop Unit} (h : Finish s r s' result)
    (hs : (∀ stop, r ≠ .error (.stop stop)) → s.slots.listener = some onEnd) :
    s.log.Grows s'.log := by
  cases h with
  | stopped stop => exact .refl _
  | notAborted e stop drained =>
    have hdrain := grows_drain (s := s.save) (hs fun stop h => by cases h)
    rw [drained] at hdrain
    exact (grows_save s).trans hdrain
  | aborted e drained =>
    have hdrain := grows_drain (s := s.save) (hs fun stop h => by cases h)
    rw [drained] at hdrain
    exact (grows_save s).trans hdrain
  | notDone stop drained =>
    have hdrain := grows_drain (hs fun stop h => by cases h)
    rwa [drained] at hdrain
  | done drained =>
    have hdrain := grows_drain (hs fun stop h => by cases h)
    rw [drained] at hdrain
    exact hdrain.trans (grows_save _)

/-- A scan that nothing has ended from outside saves once more after its pages, before the downloads
or behind them. -/
theorem Finish.stored {result : Except ScanStop Unit} (h : Finish s r s' result)
    (hs : s.Holds fresh E₀ pages) (hend : ∀ stop, result ≠ .error (.stop stop))
    (hsaved : s'.log.AllSaved) : s'.pages = s.pages
      ∧ ∃ S content, fresh.Stored s.cache.entries S content s'.disk := by
  cases h with
  | stopped stop => exact absurd rfl (hend stop)
  | notAborted e stop drained => exact absurd rfl (hend stop)
  | @aborted s' e drained =>
    have hpages := (drain_eq s.save).2
    have hlog := (grows_drain (s := s.save) hs.listener).front
    rw [drained] at hpages hlog
    obtain ⟨S, content, hstored⟩ := hs.stored_save (hsaved.of_front hlog)
    -- What the downloads do behind the save leaves the cache file alone.
    have hkept := hs.save.stored_drain hstored
    rw [drained] at hkept
    exact ⟨hpages, S, content, hkept⟩
  | notDone stop drained => exact absurd rfl (hend stop)
  | @done s' drained =>
    obtain ⟨hcache, hpages⟩ := drain_eq s
    rw [drained] at hcache hpages
    refine ⟨hpages, ?_⟩
    rw [← hcache]
    refine Cache.stored_of_save ?_ ?_ fun e he => hsaved e (List.mem_append_right _ he)
    · rw [hcache, hs.folder]
    · rw [hcache]
      exact hs.sound

theorem Finish.stop {stop : Stop} {result : Except ScanStop Unit}
    (h : Finish s (.error (.stop stop)) s' result) : result = .error (.stop stop) := by
  cases h
  rfl

/-! ## The whole scan -/

section Whole

variable {a : Assignment} {quality : Text} {concurrency : Int} {replies : List ListingReply}
  {images : ImageServer} {disk : Disk} {s₀ : Scan}

/-- An online scan that is ready for its pages runs through a course of them. -/
theorem exists_course_of_run (honline : a.offline = false)
    (hprepare : (start a fresh quality concurrency replies images disk).prepare = (s₀, .ok ())) :
    ∃ pages s₁ r, Course { s₀ with phase := .scanning } none pages s₁ r
      ∧ Finish s₁ r (start a fresh quality concurrency replies images disk).run.1
        (start a fresh quality concurrency replies images disk).run.2 := by
  obtain ⟨pages, hcourse⟩ := exists_course { s₀ with phase := .scanning } none
  refine ⟨pages, _, _, hcourse, finish_run hprepare ?_⟩
  have hassign : s₀.assignment = a := (ready_of_prepare hprepare).assignment
  rw [lookThrough, show ({ s₀ with phase := .scanning } : Scan).assignment = a from hassign,
    honline]
  rfl

/-- Whenever a page is asked for, all pages before it are in the cache file. -/
theorem kept_at_request {front : Log} {req : Request}
    (hstart : Holds fresh E₀ [] { s₀ with phase := .scanning })
    (hyields : fresh.Yields s₀.disk s₀.cache.entries)
    (hready : Ready { s₀ with phase := .scanning } a replies)
    (hcourse : Course { s₀ with phase := .scanning } none pages s r)
    (hreq : req.parameters.isSome = true) (hfront : front ++ [.request req] <+: s.log)
    (hsaved : front.AllSaved) :
    ∃ pages t cursor es, Passes { s₀ with phase := .scanning } none pages t cursor
      ∧ t.log <+: front ∧ front ++ [.request req] <+: (t.fetch cursor).1.log
      ∧ Delivers a none replies pages
      ∧ Entries.Overlaid E₀ (itemsOf pages) es
      ∧ fresh.Yields t.disk es
      ∧ (pages ≠ [] → t.disk.document fresh.path = .ok es.document) := by
  -- Nothing is asked for before the loop, so the request is one of the loop's.
  have hafter : ({ s₀ with phase := .scanning } : Scan).log <+: front :=
    (Log.prefix_or hcourse.front hfront).resolve_left (Log.not_asked hready.requests hreq)
  obtain ⟨pages, t, c, hpasses, _, ht, hasked⟩ := hcourse.asked hreq hafter hfront
  have htaken := hpasses.holds hstart
  have hdelivers := hpasses.delivers
  rw [hready.assignment, hready.replies] at hdelivers
  refine ⟨pages, t, c, t.cache.entries, hpasses, ht, hasked, hdelivers, htaken.overlaid, ?_, ?_⟩
  · by_cases hpages : pages = []
    · -- Before the first page the cache has not been saved yet, and is the one that was loaded.
      subst hpages
      cases hpasses
      exact hyields
    · obtain ⟨S, content, hstored⟩ := hpasses.stored hstart hpages (hsaved.of_front ht)
      exact hstored.yields htaken.sound
  · intro hpages
    obtain ⟨S, content, hstored⟩ := hpasses.stored hstart hpages (hsaved.of_front ht)
    exact hstored.document_eq

/-- When the scan is over, all its pages are in the cache file. -/
theorem kept_at_end {s₁ : Scan} {result : Except ScanStop Unit}
    (hstart : Holds fresh E₀ [] { s₀ with phase := .scanning })
    (hready : Ready { s₀ with phase := .scanning } a replies)
    (hcourse : Course { s₀ with phase := .scanning } none pages s₁ r)
    (hfinish : Finish s₁ r s result) (hend : ∀ stop, result ≠ .error (.stop stop))
    (hsaved : s.log.AllSaved) :
    pages.length = s.pages ∧ Delivers a none replies pages
      ∧ Entries.Overlaid E₀ (itemsOf pages) s₁.cache.entries
      ∧ fresh.Yields s.disk s₁.cache.entries
      ∧ s.disk.document fresh.path = .ok s₁.cache.entries.document := by
  have hr : ∀ stop, r ≠ .error (.stop stop) := by
    rintro stop rfl
    exact hend stop hfinish.stop
  have hs₁ := hcourse.holds hstart hr
  obtain ⟨hpages, S, content, hstored⟩ := hfinish.stored hs₁ hend hsaved
  have hdelivers := hcourse.delivers
  rw [hready.assignment, hready.replies] at hdelivers
  exact ⟨(hpages.trans hs₁.pages).symm, hdelivers, hs₁.overlaid, hstored.yields hs₁.sound,
    hstored.document_eq⟩

end Whole

/-- In an online scan that loads the entries `E₀` at its start, as long as no save has failed,

* whenever a page is asked for, the pages taken in so far are those delivered so far, and whoever
  loads the cache from the disk gets `E₀` with all their items laid over it; once there is a page,
  the cache file holds just that;
* when the scan has come to its end, or could not fetch a page, the same holds of all the pages that
  it has fetched. -/
theorem run_keeps_all (a : Assignment) (fresh : Cache) (quality : Text) (concurrency : Int)
    (replies : List ListingReply) (images : ImageServer) (disk : Disk)
    (honline : a.offline = false) :
    let E₀ := (fresh.load (disk.makeFolders fresh.folder).1).2.1.entries
    let scan := start a fresh quality concurrency replies images disk
    (∀ (front : Log) (req : Request) (back : Log), scan.run.1.log = front ++ .request req :: back →
      req.parameters.isSome = true → front.AllSaved →
      ∃ s₀, scan.prepare = (s₀, .ok ())
        ∧ ∃ pages t cursor es, Passes { s₀ with phase := .scanning } none pages t cursor
          ∧ t.log <+: front ∧ front ++ [.request req] <+: (t.fetch cursor).1.log
          ∧ Delivers a none replies pages
          ∧ Entries.Overlaid E₀ (itemsOf pages) es
          ∧ fresh.Yields t.disk es
          ∧ (pages ≠ [] → t.disk.document fresh.path = .ok es.document))
      ∧ ((scan.run.2 = .ok () ∨ ∃ e, scan.run.2 = .error (.fetch e)) → scan.run.1.log.AllSaved →
        ∃ pages es, pages.length = scan.run.1.pages
          ∧ Delivers a none replies pages
          ∧ Entries.Overlaid E₀ (itemsOf pages) es
          ∧ fresh.Yields scan.run.1.disk es
          ∧ scan.run.1.disk.document fresh.path = .ok es.document) := by
  intro E₀ scan
  have hfront : ∀ {front : Log} {req : Request} {back log : Log},
      log = front ++ .request req :: back → front ++ [.request req] <+: log := by
    rintro front req back log rfl
    exact ⟨back, List.append_assoc ..⟩
  cases hprepare : scan.prepare with
  | mk s₀ result =>
    cases result with
    | error e =>
      -- Nothing has been asked for before the pages, and no page could fail to be fetched.
      have hrun : scan.run = (s₀, .error e) := by rw [run, hprepare]
      have hnone := requests_prepare scan
      have hfetch := prepare_ne_fetch scan
      rw [hprepare] at hnone hfetch
      rw [hrun]
      constructor
      · intro front req back hlog hreq _
        exact absurd (hfront hlog) (Log.not_asked hnone hreq)
      · rintro (hend | ⟨f, hend⟩)
        · cases hend
        · exact absurd hend (hfetch f)
    | ok _ =>
      have hready := ready_of_prepare hprepare
      obtain ⟨hstart, hyields⟩ := holds_of_prepare hprepare
      obtain ⟨pages, s₁, r, hcourse, hfinish⟩ := exists_course_of_run honline hprepare
      constructor
      · intro front req back hlog hreq hsaved
        have hloop := (hfinish.grows fun hr => (hcourse.holds hstart hr).listener).asked hreq
          (hfront hlog)
        exact ⟨s₀, rfl, kept_at_request hstart hyields hready hcourse hreq hloop hsaved⟩
      · intro hend hsaved
        have hnotStopped : ∀ stop, scan.run.2 ≠ .error (.stop stop) := by
          intro stop hstop
          rcases hend with hend | ⟨e, hend⟩ <;> cases hstop.symm.trans hend
        exact ⟨pages, s₁.cache.entries,
          kept_at_end hstart hready hcourse hfinish hnotStopped hsaved⟩

end Scan

/-! ## A page without a match, and no page after it -/

namespace Unmatched

open Scan

/-- An item without an address. -/
def entries : Entries := [(.text "b", .bare [("id", .text "b")])]

/-- The user's folder with a cache file that holds the item. -/
def disk : Disk :=
  ⟨[], [(["u"], .folder),
    (["u", "metadata.json"], .file (Text.ofString "[\x7b\"id\":\"b\"\x7d]").bytes)]⟩

def fresh : Cache := ⟨"u", [], []⟩

/-- A scan for dogs. -/
def assignment : Assignment :=
  { TwoCats.assignment with filter := ⟨"dog", [], [], some (.term "dog")⟩ }

/-- The first page says that there is another one, for which the server has no answer. -/
def replies : List ListingReply :=
  [.ok ⟨200, [], [],
    "\x7b\"items\":[\x7b\"id\":1,\"url\":\"p\"\x7d],\"metadata\":\x7b\"nextCursor\":\"c\"\x7d\x7d"⟩]

def page : Page := ⟨[⟨.int 1, "p", none, [("id", .int 1), ("url", .text "p")]⟩], some "c"⟩

def scan : Scan := start assignment fresh "SD" 1 replies [] disk

def keeping : Event := .detail "Keeping cache entry b without a url as-is"

/-- The scan before its first page. -/
def ready : Scan :=
  { scan with
    cache := ⟨"u", entries, ["metadata"]⟩
    slots := { scan.slots with
      log := [keeping, .detail "Loaded 1 cached entries from u/metadata.json"] } }

/-- The scan after its first page. -/
def second : Scan := (({ ready with phase := .scanning }.arrived none page).takePage page).1

/-- The scan after the page that could not be fetched. -/
def failed : Scan := (second.fetch (some "c")).1

theorem load_disk : fresh.load disk
    = ([keeping, .detail "Loaded 1 cached entries from u/metadata.json"], ⟨"u", entries, []⟩,
      .ok ()) := by
  have hentry : disk.hasEntry fresh.path = true := by cbv
  have hdocument : disk.document fresh.path = .ok (.array [.object [("id", .text "b")]]) := by cbv
  have hread : Entries.readItems [] [.object [("id", .text "b")]] = ([keeping], .ok entries) := by
    cbv
  rw [Cache.load, hentry, hdocument, if_neg (by decide)]
  dsimp only
  rw [hread]
  rfl

theorem makeFolders_disk : disk.makeFolders "u" = (disk, .ok ()) := by cbv

theorem prepare_scan : scan.prepare = (ready, .ok ()) := by
  have hindex : Cache.indexFiles ⟨"u", entries, []⟩ disk = .ok ⟨"u", entries, ["metadata"]⟩ := by
    cbv
  rw [prepare]
  simp only [scan, start, Scan.disk, Slots.empty, show fresh.folder = "u" from rfl,
    makeFolders_disk, withDisk, load_disk, say, hindex]
  rfl

set_option maxRecDepth 10000 in
/-- What comes behind the first page, evaluated at once. -/
theorem taken_page :
    (({ ready with phase := .scanning }.arrived none page).takePage page).2 = .ok ()
      ∧ second.isLimitReached = false
      ∧ (second.fetch (some "c")).2 = .error (.error (.http 599 "script exhausted"))
      ∧ (failed.save.drain).2 = .ok ()
      ∧ (({ (failed.save.drain).1 with phase := .aborted } : Scan).log).any Event.isFailedSave
        = false := by
  cbv

set_option maxRecDepth 10000 in
theorem takesIn_page : TakesIn { ready with phase := .scanning } none page second := by
  refine ⟨by decide, by cbv, ?_, Prod.ext rfl taken_page.1⟩
  rintro ⟨_, hempty⟩
  cases hempty

theorem passes_page :
    Passes { ready with phase := .scanning } none [page] second (some "c") := by
  refine .on takesIn_page ?_ (.here second _)
  rintro (h | h) <;> cases h

theorem run_scan : scan.run = ({ (failed.save.drain).1 with phase := .aborted },
    .error (.fetch (.http 599 "script exhausted"))) := by
  obtain ⟨_, hlimit, hfetch, hdrained, _⟩ := taken_page
  have hlook : lookThrough { ready with phase := .scanning }
      = (failed, .error (.error (.http 599 "script exhausted"))) := by
    show pagesFrom { ready with phase := .scanning } none = _
    rw [Passes.pagesFrom passes_page, pagesFrom_failed (by rw [hlimit]; decide) hfetch]
    rfl
  exact run_of_error prepare_scan hlook (Prod.ext rfl hdrained)

theorem allSaved_run : scan.run.1.log.AllSaved := by
  rw [run_scan]
  exact Log.allSaved_iff.mpr taken_page.2.2.2.2

/-- The second page is asked for when the first one has been taken in. -/
theorem asked_run : ∃ req back, scan.run.1.log = second.log ++ .request req :: back
    ∧ req.parameters.isSome = true := by
  have hassign : second.assignment = assignment := TakesIn.assignment takesIn_page
  have hlistener : failed.save.slots.listener = some onEnd :=
    (TakesIn.steady takesIn_page).listener
  have hasked : second.log ++ [.request (assignment.request (some "c"))] <+: failed.log := by
    have hlog : failed.log = second.log ++ (fetchPage second.assignment.client
      (second.assignment.query (some "c")) second.replies).log := rfl
    rw [hassign] at hlog
    exact ⟨_, (List.append_assoc ..).trans hlog.symm⟩
  have hrun : failed.log <+: scan.run.1.log := by
    rw [run_scan]
    exact (grows_save failed).front.trans (grows_drain hlistener).front
  obtain ⟨back, hback⟩ := hasked.trans hrun
  rw [List.append_assoc] at hback
  exact ⟨_, back, hback.symm, rfl⟩

theorem pageRequests_second : second.log.pageRequests ≠ [] := by
  obtain ⟨tries, hpos, hlog, _⟩ := pageRequests_fetchFrom assignment.client
    (assignment.query none) 0 assignment.client.retries replies
  have hfetch : ({ ready with phase := .scanning }.fetch none).1.log.pageRequests
      = List.replicate tries (assignment.request none) := hlog
  rw [(TakesIn.grows takesIn_page).requests, hfetch]
  intro hnone
  rw [List.replicate_eq_nil_iff] at hnone
  omega

/-- At the request for the second page, which fails, and at the end. -/
theorem run_keeps_all_unmatched :
    (∃ (front : Log) (req : Request) (back : Log), scan.run.1.log = front ++ .request req :: back
      ∧ req.parameters.isSome = true ∧ front.AllSaved ∧ front.pageRequests ≠ []
      ∧ ∃ (pages : List Page) (t : Scan) (es : Entries), t.log <+: front
        ∧ Delivers assignment none replies pages
        ∧ Entries.Overlaid entries (itemsOf pages) es ∧ fresh.Yields t.disk es)
      ∧ scan.run.2 = .error (.fetch (.http 599 "script exhausted")) ∧ scan.run.1.log.AllSaved
      ∧ ∃ (pages : List Page) (es : Entries), pages.length = 1
        ∧ Delivers assignment none replies pages
        ∧ Entries.Overlaid entries (itemsOf pages) es
        ∧ scan.run.1.disk.document "u/metadata.json" = .ok es.document := by
  obtain ⟨hrequests, hend⟩ := run_keeps_all assignment fresh "SD" 1 replies [] disk rfl
  have hentries : (fresh.load (disk.makeFolders fresh.folder).1).2.1.entries = entries := by
    rw [show fresh.folder = "u" from rfl, makeFolders_disk, load_disk]
  rw [hentries] at hrequests hend
  have hresult : scan.run.2 = .error (.fetch (.http 599 "script exhausted")) := by rw [run_scan]
  have hpages : scan.run.1.pages = 1 := by
    rw [run_scan]
    exact (drain_eq failed.save).2.trans takesIn_page.steady.pages
  obtain ⟨req, back, hlog, hreq⟩ := asked_run
  have hsaved : second.log.AllSaved := allSaved_run.of_front ⟨_, hlog.symm⟩
  obtain ⟨_, _, pages, t, _, es, _, ht, _, hdelivers, hoverlaid, hyields, _⟩ :=
    hrequests second.log req back hlog hreq hsaved
  obtain ⟨pages', es', hlength, hdelivers', hoverlaid', _, hdocument⟩ :=
    hend (.inr ⟨_, hresult⟩) allSaved_run
  exact ⟨⟨second.log, req, back, hlog, hreq, hsaved, pageRequests_second, pages, t, es, ht,
      hdelivers, hoverlaid, hyields⟩,
    hresult, allSaved_run, pages', es', hlength.trans hpages, hdelivers', hoverlaid', hdocument⟩

end Unmatched

end GalleryScan
