import GalleryScan.Proofs.Disk.Present
import GalleryScan.Proofs.Scan.Keeping
import GalleryScan.Proofs.Scan.Ordinary

/-!
# Looking through the cache again

An online scan that started with nothing cached and came to its end leaves the items of all its
pages in the cache file, in their order. An offline scan for the same matches looks through them as
through one long page, and has the same answer:

> `s.Counted (f.lookedAt n (itemsOf pages))`

holds of either scan when it has looked at its last item. The cache has the rest of the last page as
well, but neither scan looks further than the last match asked for.
-/

set_option autoImplicit false

namespace GalleryScan

namespace Cache

variable {c : Cache} {d d' : Disk} {es : Entries}

/-- A cache without a file is empty. -/
theorem load_of_missing (h : d.hasEntry c.path = false) :
    c.load d = ([], { c with entries := [] }, .ok ()) := by
  rw [load]
  dsimp only
  rw [h, if_pos (by decide)]

/-- Only the cache file counts for what is loaded. -/
theorem Yields.of_read {content : Bytes} (h : c.Yields d es) (hread : d.read c.path = .ok content)
    (hread' : d'.read c.path = .ok content) : c.Yields d' es := by
  obtain ⟨log, hload⟩ := h
  refine ⟨log, ?_⟩
  rw [load, Disk.hasEntry_of_read hread, Disk.document, hread] at hload
  rw [load, Disk.hasEntry_of_read hread', Disk.document, hread']
  exact hload

end Cache

namespace Scan

variable {a : Assignment} {fresh : Cache} {quality : Text} {concurrency : Int}
  {replies : List ListingReply} {images : ImageServer} {disk : Disk} {s s' s₀ : Scan} {n : Nat}
  {f : Filter} {looked : List Record} {pages : List Page}

/-! ## The answer of a scan -/

/-- What the scan reports about its matches is what the items come to that it has looked at. -/
structure Answers (f : Filter) (looked : List Record) (s : Scan) : Prop where
  scanned : s.tally.scanned = looked.length
  found : s.tally.found = (f.matchedIds looked).card
  matched : s.matched.map some = (f.firstMatches looked).map Record.key?

theorem Counted.answers (h : s.Counted looked) : s.Answers s.assignment.filter looked :=
  ⟨h.scanned, h.found, h.matched⟩

/-- The items determine the answer. -/
theorem Answers.agree (h : s.Answers f looked) (h' : s'.Answers f looked) :
    s'.tally.scanned = s.tally.scanned ∧ s'.tally.found = s.tally.found
      ∧ s'.matched = s.matched :=
  ⟨h'.scanned.trans h.scanned.symm, h'.found.trans h.found.symm,
    (List.map_injective_iff.mpr (Option.some_injective Key)) (h'.matched.trans h.matched.symm)⟩

theorem Answers.drain (h : s.Answers f looked) : (s.drain).1.Answers f looked := by
  unfold Scan.drain
  split
  · exact { h with }
  · dsimp only
    split <;> exact { h with }

theorem phase_drain (s : Scan) : (s.drain).1.phase = .draining := by
  unfold drain
  split
  · rfl
  · dsimp only
    split <;> rfl

/-- Nothing is counted and nothing matched any more. -/
theorem Finish.answers {r : Except FetchStop Unit} {result : Except ScanStop Unit}
    (h : Finish s r s' result) (hs : s.Answers f looked) : s'.Answers f looked := by
  cases h with
  | stopped stop => exact hs
  | notAborted e stop drained =>
    have hdrained := (show s.save.Answers f looked from { hs with }).drain
    rwa [drained] at hdrained
  | aborted e drained =>
    have hdrained := (show s.save.Answers f looked from { hs with }).drain
    rw [drained] at hdrained
    exact { hdrained with }
  | notDone stop drained =>
    have hdrained := hs.drain
    rwa [drained] at hdrained
  | done drained =>
    have hdrained := hs.drain
    rw [drained] at hdrained
    exact { hdrained with }

/-- A scan that has looked at all there is comes to its end, or its downloads end it. -/
theorem Finish.done_or_draining {result : Except ScanStop Unit} (h : Finish s (.ok ()) s' result) :
    result = .ok () ∨ s'.phase = .draining ∧ ∃ stop, result = .error (.stop stop) := by
  cases h with
  | notDone stop drained =>
    have hphase := phase_drain s
    rw [drained] at hphase
    exact .inr ⟨hphase, stop, rfl⟩
  | done drained => exact .inl rfl

theorem Finish.done_of_drain {result : Except ScanStop Unit} (h : Finish s (.ok ()) s' result)
    (hdrain : ∃ t, s.drain = (t, .ok ())) : result = .ok () := by
  cases h with
  | notDone stop drained =>
    obtain ⟨t, ht⟩ := hdrain
    rw [drained] at ht
    cases ht
  | done drained => rfl

/-! ## Before the first item -/

theorem exists_prepare {scan : Scan} (h : scan.run = (s, .ok ())) :
    ∃ s₀, scan.prepare = (s₀, .ok ()) := by
  unfold run at h
  split at h
  · cases h
  · rename_i s₀ hprepare
    exact ⟨s₀, hprepare⟩

theorem canShowBars_iff : s.canShowBars = true
    ↔ s.assignment.hasBars = false ∨ s.assignment.limit.any Double.isTooLarge = false := by
  rw [canShowBars, Bool.or_eq_true, Bool.not_eq_true', Bool.not_eq_true']

/-- Bars are shown again, or for the first time where the number is not too large for them. -/
theorem shown_again {a' : Assignment}
    (h : (start a fresh quality concurrency replies images disk).prepare = (s₀, .ok ()))
    (hlimit : a.limit = some (n : Int)) (hlimit' : a'.limit = some (n : Int))
    (hbars : a'.hasBars = true → a.hasBars = true ∨ Double.isTooLarge n = false) :
    a'.hasBars = false ∨ a'.limit.any Double.isTooLarge = false := by
  obtain ⟨_, _, _, _, _, _, _, hcould, _⟩ := prepare_eq_ok h
  have hcan : a.hasBars = false ∨ a.limit.any Double.isTooLarge = false :=
    canShowBars_iff.mp hcould
  rw [hlimit, Option.any_some] at hcan
  rw [hlimit', Option.any_some]
  cases hbar : a'.hasBars with
  | false => exact .inl rfl
  | true =>
    rcases hbars hbar with hshown | hsmall
    · exact .inr (hcan.resolve_left (by rw [hshown]; decide))
    · exact .inr hsmall

theorem folder_ne_nil_of_prepare
    (h : (start a fresh quality concurrency replies images disk).prepare = (s₀, .ok ())) :
    fresh.folder ≠ [] := by
  obtain ⟨disk₀, _, _, _, hfolders, _⟩ := prepare_eq_ok h
  intro hnil
  rw [show (start a fresh quality concurrency replies images disk).cache.folder = []
    from hnil, Disk.makeFolders_nil] at hfolders
  cases hfolders

/-- Where there are records in the cache file, any scan gets as far as its first item, if only bars
can be shown. -/
theorem prepare_of_read {es : Entries} {content : Bytes} (hfolder : fresh.folder ≠ [])
    (hread : disk.read fresh.path = .ok content) (hyields : fresh.Yields disk es)
    (hrecords : es.records ≠ [])
    (hbars : a.hasBars = false ∨ a.limit.any Double.isTooLarge = false) :
    ∃ s₀, (start a fresh quality concurrency replies images disk).prepare = (s₀, .ok ())
      ∧ s₀.cache.records = es.records := by
  obtain ⟨R, hleads, hcheck⟩ := Disk.leads_of_read Cache.isName_fileName hread
  obtain ⟨log, hload⟩ := hyields
  have hfolders := hleads.makeFolders hcheck hfolder
  let cache : Cache := { fresh with entries := es, files := (disk.namesIn R).map Path.stem }
  have hindex : Cache.indexFiles { fresh with entries := es } disk = .ok cache := by
    rw [Cache.indexFiles, hleads.list hcheck hfolder]
  have hempty : cache.isEmpty = false := by
    rw [Cache.isEmpty, List.isEmpty_eq_false_iff]
    exact hrecords
  have hshown : (!a.hasBars || !a.limit.any Double.isTooLarge) = true :=
    (canShowBars_iff (s := start a fresh quality concurrency replies images disk)).mpr hbars
  rw [prepare]
  simp only [start, Scan.disk, Slots.empty, hfolders, withDisk, hload, say, hindex, hempty,
    canShowBars, hshown]
  rw [Bool.and_false]
  exact ⟨_, rfl, rfl⟩

/-! ## Either scan -/

/-- An online scan for `n` matches that started with nothing cached and came to its end. -/
theorem answers_online (honline : a.offline = false) (hlimit : a.limit = some (n : Int))
    (hn : 1 ≤ n) (hmissing : (disk.makeFolders fresh.folder).1.hasEntry fresh.path = false)
    (hdelivers : Delivers a none replies pages) (hpages : pages.length = s.pages)
    (hdistinct : ((itemsOf pages).map Record.key?).Nodup)
    (hrun : (start a fresh quality concurrency replies images disk).run = (s, .ok ()))
    (hsaved : s.log.AllSaved) :
    ∃ content es, s.disk.read fresh.path = .ok content ∧ fresh.Yields s.disk es
      ∧ es.records = itemsOf pages ∧ (∀ r ∈ itemsOf pages, r.key?.isSome)
      ∧ s.Answers a.filter (a.filter.lookedAt n (itemsOf pages)) := by
  obtain ⟨s₀, hprepare⟩ := exists_prepare hrun
  have hready := ready_of_prepare hprepare
  obtain ⟨hstart, _⟩ := holds_of_prepare hprepare
  rw [Cache.load_of_missing hmissing] at hstart
  obtain ⟨fetched, s₁, r, hcourse, hfinish⟩ := exists_course_of_run honline hprepare
  rw [hrun] at hfinish
  -- The pages of the course are those that were fetched.
  have hend : ∀ stop, (.ok () : Except ScanStop Unit) ≠ .error (.stop stop) := by
    intro stop h
    cases h
  have hr : ∀ stop, r ≠ .error (.stop stop) := by
    rintro stop rfl
    exact hend stop hfinish.stop
  obtain ⟨hlength, hfetched, hoverlaid, hyields, hdocument⟩ :=
    kept_at_end hstart hready hcourse hfinish hend hsaved
  obtain rfl := delivers_unique hdelivers hfetched (hpages.trans hlength.symm)
  have hassign : ({ s₀ with phase := .scanning } : Scan).assignment = a := hready.assignment
  have hnone : ({ s₀ with phase := .scanning } : Scan).Counted
      (({ s₀ with phase := .scanning } : Scan).assignment.filter.lookedAt n (itemsOf [])) := by
    rw [Filter.lookedAt_of_lt _ hn]
    exact hready.counted
  have hcounted := (hcourse.counted hnone (hassign ▸ hlimit) hr).answers
  rw [hcourse.assignment, hassign, List.nil_append] at hcounted
  obtain ⟨content, hread⟩ : ∃ content, s.disk.read fresh.path = .ok content := by
    rw [Disk.document] at hdocument
    split at hdocument
    · cases hdocument
    · rename_i content hread
      exact ⟨content, hread⟩
  exact ⟨content, s₁.cache.entries, hread, hyields, hoverlaid.records_eq hdistinct,
    hoverlaid.keyed, hfinish.answers hcounted⟩

theorem lookThrough_online (h : s.assignment.offline = false) :
    s.lookThrough = s.pagesFrom none := by
  rw [lookThrough, h]
  rfl

/-- The scan is through when it has taken in a page that is the last one. -/
theorem TakesIn.lookThrough_last {p : Page} (h : TakesIn s none p s')
    (honline : s.assignment.offline = false) (hlast : p.IsLast) :
    s.lookThrough = (s', .ok ()) := by
  rw [lookThrough_online honline]
  exact (pagesFrom_page h.goes (Prod.ext rfl h.fetched) h.images h.taken).1 hlast

theorem lookThrough_offline (h : s.assignment.offline = true)
    (hall : s.lookAll s.cache.records = (s', .ok ())) : s.lookThrough = (s', .ok ()) := by
  rw [lookThrough, if_pos h, hall]

/-- An offline scan for `n` matches that has these records in its cache. -/
theorem answers_offline {es : Entries} {content : Bytes} (hoffline : a.offline = true)
    (hlimit : a.limit = some (n : Int)) (hn : 1 ≤ n) (hfolder : fresh.folder ≠ [])
    (hread : disk.read fresh.path = .ok content) (hyields : fresh.Yields disk es)
    (hrecords : es.records ≠ []) (hkeys : ∀ r ∈ es.records, r.key?.isSome)
    (hbars : a.hasBars = false ∨ a.limit.any Double.isTooLarge = false) :
    ∃ s₀ s₁, (start a fresh quality concurrency replies images disk).prepare = (s₀, .ok ())
      ∧ ({ s₀ with phase := .scanning } : Scan).lookAll es.records = (s₁, .ok ())
      ∧ s₁.assignment = a
      ∧ s₁.Answers a.filter (a.filter.lookedAt n es.records)
      ∧ Finish s₁ (.ok ()) (start a fresh quality concurrency replies images disk).run.1
        (start a fresh quality concurrency replies images disk).run.2 := by
  obtain ⟨s₀, hprepare, hcached⟩ : ∃ s₀,
      (start a fresh quality concurrency replies images disk).prepare = (s₀, .ok ())
        ∧ s₀.cache.records = es.records := prepare_of_read hfolder hread hyields hrecords hbars
  have hready := ready_of_prepare hprepare
  have hassign : ({ s₀ with phase := .scanning } : Scan).assignment = a := hready.assignment
  have hnone : ({ s₀ with phase := .scanning } : Scan).Counted
      (({ s₀ with phase := .scanning } : Scan).assignment.filter.lookedAt n []) := by
    rw [Filter.lookedAt_of_lt _ hn]
    exact hready.counted
  obtain ⟨s₁, hall, hcounted⟩ := hnone.lookAll es.records (hassign ▸ hlimit) hkeys
  have hassign₁ : s₁.assignment = a := by
    have hsteady := steady_lookAll { s₀ with phase := .scanning } es.records
    rw [hall] at hsteady
    exact hsteady.assignment.trans hassign
  have hlook : lookThrough { s₀ with phase := .scanning } = (s₁, .ok ()) := by
    refine lookThrough_offline ?_ ?_
    · rw [hassign, hoffline]
    · show lookAll _ s₀.cache.records = _
      rw [hcached, hall]
  have hanswers := hcounted.answers
  rw [hassign₁, hassign, List.nil_append] at hanswers
  exact ⟨s₀, s₁, hprepare, hall, hassign₁, hanswers, finish_run hprepare hlook⟩

/-! ## The same answer -/

theorem itemsOf_ne_nil (h : ∃ p ps, pages = p :: ps ∧ p.items ≠ []) : itemsOf pages ≠ [] := by
  obtain ⟨p, ps, rfl, hitems⟩ := h
  rw [show itemsOf (p :: ps) = p.items ++ itemsOf ps from List.flatMap_cons]
  exact List.append_ne_nil_of_left_ne_nil hitems _

/-- An online scan for `n` matches starts without a cache file and comes to its end with every save
done. Whoever then scans the cache file offline for the same matches, on a disk that holds the same
file, gets the same answer, whichever images are there. The offline scan comes to its end as well,
unless its own downloads end it, which they do not where no answer of the image server is a wish to
stop the program and the names of the files have a form in bytes.

Of the second scan's bars only this is asked: it shows them where the first one did, or the number
of matches is not beyond all that they can show. -/
theorem replay_agrees (a a' : Assignment) (fresh : Cache) (quality quality' : Text)
    (concurrency concurrency' : Int) (replies replies' : List ListingReply)
    (images images' : ImageServer) (disk disk' : Disk) (n : Nat) (pages : List Page) (s : Scan)
    (hn : 1 ≤ n) (honline : a.offline = false) (hoffline : a'.offline = true)
    (hlimit : a.limit = some (n : Int)) (hlimit' : a'.limit = some (n : Int))
    (hfilter : a'.filter = a.filter)
    (hbars : a'.hasBars = true → a.hasBars = true ∨ Double.isTooLarge n = false)
    (hmissing : (disk.makeFolders fresh.folder).1.hasEntry fresh.path = false)
    (hrun : (start a fresh quality concurrency replies images disk).run = (s, .ok ()))
    (hsaved : s.log.AllSaved)
    (hdelivers : Delivers a none replies pages) (hpages : pages.length = s.pages)
    (hfirst : ∃ p ps, pages = p :: ps ∧ p.items ≠ [])
    (hdistinct : ((itemsOf pages).map Record.key?).Nodup)
    (hread : disk'.read fresh.path = s.disk.read fresh.path) :
    let replay := (start a' fresh quality' concurrency' replies' images' disk').run
    (replay.1.tally.scanned = s.tally.scanned ∧ replay.1.tally.found = s.tally.found
        ∧ replay.1.matched = s.matched)
      ∧ (replay.2 = .ok () ∨ replay.1.phase = .draining ∧ ∃ stop, replay.2 = .error (.stop stop))
      ∧ (a'.hindrance = none → (∀ i ∈ images', i.2.IsOrdinary) →
        (∀ r ∈ itemsOf pages, (r.target quality').fileName.isEncodable = true) →
        replay.2 = .ok ()) := by
  intro replay
  obtain ⟨content, es, hcontent, hyields, hrecords, hkeys, hanswers⟩ :=
    answers_online honline hlimit hn hmissing hdelivers hpages hdistinct hrun hsaved
  rw [hcontent] at hread
  obtain ⟨s₀, hprepare⟩ := exists_prepare hrun
  -- The first page has items, so there is something in the cache to look through.
  have hsome : es.records ≠ [] := hrecords ▸ itemsOf_ne_nil hfirst
  have hshown := shown_again hprepare hlimit hlimit' hbars
  have hkeyed : ∀ r ∈ es.records, r.key?.isSome := hrecords ▸ hkeys
  obtain ⟨t₀, t, hprepare', hall, hassign, hanswers', hfinish⟩ :
      ∃ t₀ t, (start a' fresh quality' concurrency' replies' images' disk').prepare = (t₀, .ok ())
        ∧ ({ t₀ with phase := .scanning } : Scan).lookAll es.records = (t, .ok ())
        ∧ t.assignment = a' ∧ t.Answers a'.filter (a'.filter.lookedAt n es.records)
        ∧ Finish t (.ok ()) replay.1 replay.2 :=
    answers_offline hoffline hlimit' hn (folder_ne_nil_of_prepare hprepare) hread
      (hyields.of_read hcontent hread) hsome hkeyed hshown
  -- The records of the cache are the items of the pages: both scans have looked at one list.
  rw [hrecords, hfilter] at hanswers'
  refine ⟨hanswers.agree (hfinish.answers hanswers'), hfinish.done_or_draining, ?_⟩
  intro hnone himages hnames
  have hcheck : Disk.checkPath fresh.folder = .ok () := by
    obtain ⟨R, _, hcheck⟩ := Disk.leads_of_read Cache.isName_fileName hread
    exact Disk.checkPath_of_join Cache.isName_fileName hcheck
  have hprepared := balanced_prepare hcheck himages hprepare'
  have hbalanced := balanced_lookAll (s := { t₀ with phase := .scanning }) hprepared
    (hrecords ▸ hnames)
  rw [hall] at hbalanced
  exact hfinish.done_of_drain (drain_of_balanced hbalanced (hassign ▸ hnone))

end Scan

/-! ## One of two cats -/

namespace OneOfTwo

open Scan

/-- A scan for one cat. -/
def assignment : Assignment := { TwoCats.assignment with limit := some 1 }

/-- The same scan, of the cache. -/
def again : Assignment := { assignment with offline := true }

/-- A page with two cats. -/
def replies : List ListingReply :=
  [.ok ⟨200, [], [],
    "\x7b\"items\":[" ++ TwoCats.item "1" "p" ++ "," ++ TwoCats.item "2" "q" ++ "]\x7d"⟩]

def page : Page := ⟨[TwoCats.cat 1 "p", TwoCats.cat 2 "q"], none⟩

def fresh : Cache := ⟨"u", [], []⟩

def scan : Scan := start assignment fresh "SD" 1 replies [] TwoCats.disk

/-- The scan before its first page. -/
def ready : Scan := { scan with cache := ⟨"u", [], ["1"]⟩ }

/-- The scan after its first page. -/
def second : Scan := (({ ready with phase := .scanning }.arrived none page).takePage page).1

theorem makeFolders_disk : TwoCats.disk.makeFolders "u" = (TwoCats.disk, .ok ()) := by cbv

/-- An online scan without bars finds nothing on the disk but the one image. -/
theorem prepare_start (a : Assignment) (replies : List ListingReply) (images : ImageServer)
    (honline : a.offline = false) (hbars : a.hasBars = false) :
    (start a fresh "SD" 1 replies images TwoCats.disk).prepare
      = ({ start a fresh "SD" 1 replies images TwoCats.disk with cache := ⟨"u", [], ["1"]⟩ },
          .ok ()) := by
  have hload : fresh.load TwoCats.disk = ([], fresh, .ok ()) := by cbv
  have hindex : Cache.indexFiles fresh TwoCats.disk = .ok ⟨"u", [], ["1"]⟩ := by cbv
  rw [prepare]
  simp only [start, Scan.disk, Slots.empty, show fresh.folder = "u" from rfl, makeFolders_disk,
    withDisk, hload, say, hindex, honline, canShowBars, hbars]
  rfl

theorem prepare_scan : scan.prepare = (ready, .ok ()) := prepare_start assignment replies [] rfl rfl

set_option maxRecDepth 10000 in
/-- What comes behind the page, evaluated at once. -/
theorem taken_page :
    (({ ready with phase := .scanning }.arrived none page).takePage page).2 = .ok ()
      ∧ second.tally.scanned = 1 ∧ (second.drain).2 = .ok ()
      ∧ (({ (second.drain).1.save with phase := .done } : Scan).log).any Event.isFailedSave
        = false := by
  cbv

set_option maxRecDepth 10000 in
theorem takesIn_page : TakesIn { ready with phase := .scanning } none page second := by
  refine ⟨by decide, by cbv, ?_, Prod.ext rfl taken_page.1⟩
  rintro ⟨_, hempty⟩
  cases hempty

theorem run_scan : scan.run = ({ (second.drain).1.save with phase := .done }, .ok ()) := by
  have hlook : lookThrough { ready with phase := .scanning } = (second, .ok ()) :=
    TakesIn.lookThrough_last takesIn_page rfl (.inl rfl)
  exact run_of_ok prepare_scan hlook (Prod.ext rfl taken_page.2.2.1)

theorem allSaved_run : scan.run.1.log.AllSaved := by
  rw [run_scan]
  exact Log.allSaved_iff.mpr taken_page.2.2.2

theorem scanned_run : scan.run.1.tally.scanned = 1 := by
  have hdrained : (second.drain).1.tally = second.tally :=
    (drain_counts (TakesIn.steady takesIn_page).listener).1
  rw [run_scan]
  show (second.drain).1.tally.scanned = 1
  rw [hdrained, taken_page.2.1]

/-- At a limit that leaves the second cat out of both scans. -/
theorem replay_agrees_one :
    let replay := (start again fresh "HD" 2 [] [] scan.run.1.disk).run
    (scan.run.2 = .ok () ∧ scan.run.1.log.AllSaved ∧ scan.run.1.tally.scanned = 1)
      ∧ replay.1.tally.scanned = 1 ∧ replay.1.tally.found = scan.run.1.tally.found
      ∧ replay.1.matched = scan.run.1.matched ∧ replay.2 = .ok () := by
  have hresult : scan.run.2 = .ok () := by rw [run_scan]
  have hmissing : (TwoCats.disk.makeFolders fresh.folder).1.hasEntry fresh.path = false := by
    rw [show fresh.folder = "u" from rfl, makeFolders_disk]
    decide
  have hdelivers : Delivers assignment none replies [page] := ⟨takesIn_page.fetched, trivial⟩
  have hpages : [page].length = scan.run.1.pages := by
    rw [run_scan]
    exact ((drain_eq second).2.trans takesIn_page.steady.pages).symm
  obtain ⟨⟨hscanned, hfound, hmatched⟩, _, hdone⟩ := replay_agrees assignment again fresh "SD" "HD"
    1 2 replies [] [] [] TwoCats.disk scan.run.1.disk 1 [page] scan.run.1 (by decide) rfl rfl rfl
    rfl rfl (fun h => by cases h) hmissing (Prod.ext rfl hresult) allSaved_run hdelivers hpages
    ⟨page, [], rfl, List.cons_ne_nil _ _⟩ (by decide) rfl
  exact ⟨⟨hresult, allSaved_run, scanned_run⟩, hscanned.trans scanned_run, hfound, hmatched,
    hdone rfl (List.forall_mem_nil _) (by decide)⟩

end OneOfTwo

end GalleryScan
