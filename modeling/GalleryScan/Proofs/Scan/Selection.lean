import GalleryScan.Proofs.Scan.Paging
import GalleryScan.Scan.Start
import Mathlib

/-!
# What a scan selects

A scan of a user's pages selects the first matches, up to as many as asked for, and submits those
for which no file is there:

> `s₁.slots.waiting = ((f.firstMatches looked).filter (!s₀.cache.hasFile ·.id)).map Record.job`

where `looked` are the items up to the last match asked for. The state before the first page, with
the names of the files that were there, is `s₀`, the one after the last page is `s₁`. Neither the
downloads nor a cache that cannot be saved have a part in what is selected and counted.
-/

set_option autoImplicit false

namespace GalleryScan

/-! ## Before the first page -/

theorem requests_readItems (es : Entries) (items : List Json) :
    (es.readItems items).1.requests = [] := by
  induction items generalizing es with
  | nil => rfl
  | cons item items ih =>
    have hentry : ∀ members, (Entries.entryOf members).1.requests = [] := by
      intro members
      unfold Entries.entryOf
      split <;> rfl
    unfold Entries.readItems
    dsimp only
    split
    · split
      · exact hentry _
      · rw [Log.requests_append, hentry, ih, List.append_nil]
    · exact ih es

/-- Nothing is asked for to load a cache. -/
theorem requests_load (c : Cache) (d : Disk) : (c.load d).1.requests = [] := by
  unfold Cache.load
  dsimp only
  split
  · rfl
  split
  · rfl
  · rfl
  · rename_i items _
    have h := requests_readItems [] items
    split
    · rename_i hread
      rwa [hread] at h
    · rename_i hread
      rw [hread] at h
      rw [Log.requests_append, h]
      rfl
  · rfl

theorem pageRequests_load (c : Cache) (d : Disk) : (c.load d).1.pageRequests = [] := by
  rw [Log.pageRequests, requests_load, List.filter_nil]

namespace Scan

theorem indexFiles_eq_ok {c c' : Cache} {d : Disk} (h : c.indexFiles d = .ok c') :
    ∃ files, c' = { c with files } := by
  unfold Cache.indexFiles at h
  split at h
  · cases h
    exact ⟨_, rfl⟩
  · cases h
    exact ⟨_, rfl⟩
  · cases h

/-- What is ready for the first page differs from the start in cache, disk and log only. -/
theorem prepare_eq_ok {s s₀ : Scan} (h : s.prepare = (s₀, .ok ())) :
    ∃ disk log cache files, s.disk.makeFolders s.cache.folder = (disk, .ok ())
      ∧ s.cache.load disk = (log, cache, .ok ())
      ∧ cache.indexFiles disk = .ok { cache with files } ∧ s.canShowBars = true
      ∧ s₀ = { (s.withDisk disk).say log with cache := { cache with files } } := by
  unfold prepare at h
  split at h
  · cases h
  rename_i disk hfolders
  dsimp only at h
  split at h
  · cases h
  · cases h
  rename_i log cache hload
  split at h
  · cases h
  rename_i cache' hindex
  obtain ⟨files, rfl⟩ := indexFiles_eq_ok hindex
  split at h
  · cases h
  split at h
  · rename_i hbars
    cases h
    exact ⟨disk, log, cache, files, hfolders, hload, hindex, hbars, rfl⟩
  · cases h

/-- Nothing has been looked at before the first page. -/
theorem Counted.nil {s : Scan} (htally : s.tally = ⟨0, 0, 0, 0, false⟩) (hmatched : s.matched = [])
    (hwaiting : s.slots.waiting = []) (hsubmitted : s.slots.submitted = 0) : s.Counted [] where
  scanned := by rw [htally]; rfl
  found := by rw [htally]; rfl
  matched := by rw [hmatched]; rfl
  waiting := by rw [hwaiting]; rfl
  submitted := by rw [hsubmitted, hwaiting]; rfl
  downloaded := by rw [htally, hwaiting]; rfl
  skipped := by rw [htally]; rfl

/-- A scan of these replies that is about to ask for its first page. -/
structure Ready (s : Scan) (a : Assignment) (replies : List ListingReply) : Prop where
  assignment : s.assignment = a
  replies : s.replies = replies
  pages : s.pages = 0
  listener : s.slots.listener = some onEnd
  requests : s.log.pageRequests = []
  counted : s.Counted []

theorem ready_of_prepare {a : Assignment} {cache : Cache} {quality : Text} {concurrency : Int}
    {replies : List ListingReply} {images : ImageServer} {disk : Disk} {s₀ : Scan}
    (h : (start a cache quality concurrency replies images disk).prepare = (s₀, .ok ())) :
    Ready { s₀ with phase := .scanning } a replies := by
  obtain ⟨disk₀, log₀, cache₀, files₀, _, hload, _, _, rfl⟩ := prepare_eq_ok h
  have hlog₀ := pageRequests_load cache disk₀
  rw [show cache.load disk₀ = (log₀, cache₀, .ok ()) from hload] at hlog₀
  exact ⟨rfl, rfl, rfl, rfl, hlog₀, .nil rfl rfl rfl rfl⟩

/-! ## After the last page -/

theorem hearsQuietly_onEnd {s : Slots} (h : s.listener = some onEnd) : s.HearsQuietly := by
  intro f hf r e
  rw [h] at hf
  cases hf
  cases e <;> rfl

/-- The downloads change none of the numbers and ask for no page. -/
theorem drain_counts {s : Scan} (h : s.slots.listener = some onEnd) :
    (s.drain).1.tally = s.tally ∧ (s.drain).1.pages = s.pages
      ∧ (s.drain).1.log.pageRequests = s.log.pageRequests := by
  have hquiet := (Slots.quiet_drain (hearsQuietly_onEnd h)).2
  unfold drain
  split
  · exact ⟨rfl, rfl, rfl⟩
  · dsimp only
    split
    · exact ⟨rfl, rfl, hquiet⟩
    · exact ⟨rfl, rfl, hquiet⟩

/-- A scan that came to the end of its pages has counted what it had counted there. -/
theorem run_counts {s s₀ s₁ : Scan} (hprepare : s.prepare = (s₀, .ok ()))
    (hlook : lookThrough { s₀ with phase := .scanning } = (s₁, .ok ()))
    (hl : s₁.slots.listener = some onEnd) :
    (s.run).1.tally = s₁.tally ∧ (s.run).1.pages = s₁.pages
      ∧ (s.run).1.log.pageRequests = s₁.log.pageRequests := by
  have hdrain := drain_counts hl
  unfold run
  rw [hprepare]
  dsimp only
  rw [hlook]
  dsimp only
  split
  · rename_i hstop
    rwa [hstop] at hdrain
  · rename_i s₂ hend
    rw [hend] at hdrain
    obtain ⟨htally, hpages, hlog⟩ := hdrain
    exact ⟨htally, hpages, (steady_save s₂).requests.trans hlog⟩

end Scan

/-! ## The selection -/

/-- An online scan for `n` matches, whose server delivers `pages`, takes the first `k` of them,
where `k` is the least number with which it ends; it looks at their items up to the one that
supplies the last match asked for, and submits the first item with each matching id unless a file
is named after that. This is so whatever the image server does and however the downloads end. -/
theorem Scan.run_selects_first_matches (a : Assignment) (cache : Cache) (quality : Text)
    (concurrency : Int) (replies : List ListingReply) (images : ImageServer) (disk : Disk)
    (n k : Nat) (pages : List Page) (s₀ : Scan) (hn : 1 ≤ n) (honline : a.offline = false)
    (hlimit : a.limit = some (n : Int))
    (hprepare : (start a cache quality concurrency replies images disk).prepare = (s₀, .ok ()))
    (hdelivers : Delivers a none replies pages)
    (hkeys : ∀ p ∈ pages, ∀ r ∈ p.items, r.key?.isSome)
    (hk : IsLeast {j | 1 ≤ j ∧ j ≤ pages.length ∧ Ends a.filter n (pages.take j)} k) :
    let s := (start a cache quality concurrency replies images disk).run.1
    let asked := ((none :: pages.map Page.cursor).take k).map a.request
    let looked := a.filter.lookedAt n (itemsOf (pages.take k))
    let submitted := (a.filter.firstMatches looked).filter fun r => !s₀.cache.hasFile r.id
    s.pages = k
      ∧ Repeating asked s.log.pageRequests
      ∧ (Impatient replies → s.log.pageRequests = asked)
      ∧ s.tally.scanned = looked.length
      ∧ s.tally.found = (a.filter.matchedIds looked).card
      ∧ s.tally.downloaded = submitted.length
      ∧ s.tally.skipped = s.tally.found - submitted.length
      ∧ ∃ s₁, lookThrough { s₀ with phase := .scanning } = (s₁, .ok ())
        ∧ s₁.slots.waiting = submitted.map Record.job := by
  intro s asked looked submitted
  have hready := ready_of_prepare hprepare
  let s' : Scan := { s₀ with phase := .scanning }
  have hassign : s'.assignment = a := hready.assignment
  have hreplies : s'.replies = replies := hready.replies
  have hcounted : s'.Counted (s'.assignment.filter.lookedAt n (itemsOf [])) := by
    rw [Filter.lookedAt_of_lt _ hn]
    exact hready.counted
  -- The loop over pages, from the state in which nothing has been looked at.
  obtain ⟨s₁, hloop, hs₁, hpaged⟩ := hcounted.pagesFrom pages (by rw [hassign, hlimit])
    hready.pages hn (by rw [hassign, hreplies]; exact hdelivers) hkeys (by rw [hassign]; exact hk)
  have hlook : lookThrough s' = (s₁, .ok ()) := by
    rw [lookThrough, hassign, honline]
    exact hloop
  obtain ⟨htally, hpages, hlog⟩ := run_counts hprepare hlook (hpaged.listener.trans hready.listener)
  obtain ⟨sent, hsent, hrepeating, honce⟩ := hpaged.requests
  rw [hready.requests, List.nil_append] at hsent
  have hfiles : ∀ id, s₁.cache.hasFile id = s₀.cache.hasFile id := by
    intro id
    rw [Cache.hasFile, hpaged.files]
    rfl
  have hf : s₁.assignment = a := hpaged.assignment.trans hassign
  rw [hassign] at hs₁ hrepeating honce
  rw [hreplies] at honce
  have hfound : s₁.tally.found = (a.filter.matchedIds looked).card := by rw [hs₁.found, hf]; rfl
  have hwaiting : s₁.slots.waiting = submitted.map Record.job := by
    rw [hs₁.waiting, hf]
    simp only [hfiles]
    rfl
  have hdownloaded : s₁.tally.downloaded = submitted.length := by
    rw [hs₁.downloaded, hwaiting, List.length_map]
  refine ⟨?_, ?_, ?_, ?_, ?_, ?_, ?_, s₁, hlook, hwaiting⟩
  · rw [hpages, hpaged.pages, hready.pages, Nat.zero_add]
  · rw [hlog, hsent]
    exact hrepeating
  · intro hi
    rw [hlog, hsent, (honce hi).1]
  · rw [htally]
    exact hs₁.scanned
  · rw [htally, hfound]
  · rw [htally, hdownloaded]
  · rw [htally, ← hs₁.skipped, hdownloaded]
    omega

/-! ## A scan for two cats -/

namespace TwoCats

/-- A user's images with cats, two of them. -/
def assignment : Assignment where
  username := .text "u"
  sort := .text "s"
  nsfw := .text "n"
  limit := some 2
  offline := false
  filter := ⟨"cat", [], [], some (.term "cat")⟩
  client := ⟨"b", .null, 0, .whole 1⟩
  hasBars := false
  hindrance := none

/-- A cat's item on a page. -/
def item (id url : Text) : Text :=
  "\x7b\"id\":" ++ id ++ ",\"url\":\"" ++ url ++ "\",\"meta\":\x7b\"prompt\":\"cat\"\x7d\x7d"

/-- A cat. -/
def cat (id : Int) (url : Text) : Record :=
  ⟨.int id, url, some "cat",
    [("id", .int id), ("url", .text url), ("meta", .object [("prompt", .text "cat")])]⟩

/-- Two pages, of which the second repeats the cat of the first. -/
def replies : List ListingReply :=
  [.ok ⟨200, [], [],
      "\x7b\"items\":[" ++ item "1" "p" ++ "],\"metadata\":\x7b\"nextCursor\":\"c\"\x7d\x7d"⟩,
    .ok ⟨200, [], [], "\x7b\"items\":[" ++ item "1" "p" ++ "," ++ item "2" "q" ++ "]\x7d"⟩]

def pages : List Page := [⟨[cat 1 "p"], some "c"⟩, ⟨[cat 1 "p", cat 2 "q"], none⟩]

/-- The user's folder holds the image of the first cat. -/
def disk : Disk := ⟨[], [(["u"], .folder), (["u", "1.png"], .file [])]⟩

def scan : Scan := Scan.start assignment ⟨"u", [], []⟩ "SD" 1 replies [] disk

set_option maxRecDepth 8000 in
/-- At a user with two cats, of which one comes twice and has a file. -/
theorem run_selects_both :
    (scan.run.1.pages = 2 ∧ scan.run.1.tally.scanned = 3 ∧ scan.run.1.tally.found = 2)
      ∧ scan.run.1.tally.downloaded = 1 ∧ scan.run.1.tally.skipped = 1 := by
  have hfolders : disk.makeFolders "u" = (disk, .ok ()) := by cbv
  have hload : Cache.load ⟨"u", [], []⟩ disk = ([], ⟨"u", [], []⟩, .ok ()) := by cbv
  have hindex : Cache.indexFiles ⟨"u", [], []⟩ disk = .ok ⟨"u", [], ["1"]⟩ := by cbv
  have hprepare : scan.prepare = ({ scan with cache := ⟨"u", [], ["1"]⟩ }, .ok ()) := by
    rw [Scan.prepare]
    simp only [scan, Scan.start, Scan.disk, Slots.empty, hfolders, hload, hindex,
      Scan.withDisk, Scan.say]
    rfl
  have hdelivers : Delivers assignment none replies pages := by
    -- At once, for the second page is read behind the first one.
    cbv
    exact ⟨rfl, rfl, trivial⟩
  have hone : ¬ Ends assignment.filter 2 (pages.take 1) := by
    intro h
    cases h with
    | noImages p single empty =>
      cases single
      cases empty
    | enough found =>
      have hcard : (assignment.filter.matchedIds (itemsOf (pages.take 1))).card = 1 := by
        decide +kernel
      omega
    | last p final isLast =>
      cases final
      rcases isLast with h | h <;> cases h
  have hk : IsLeast {j | 1 ≤ j ∧ j ≤ pages.length ∧ Ends assignment.filter 2 (pages.take j)} 2 := by
    refine ⟨⟨by decide, by decide, .last ⟨[cat 1 "p", cat 2 "q"], none⟩ rfl (.inl rfl)⟩, ?_⟩
    rintro j ⟨hpos, _, hj⟩
    by_contra hlt
    obtain rfl : j = 1 := by omega
    exact hone hj
  obtain ⟨hpages, _, _, hscanned, hfound, hdownloaded, hskipped, _⟩ :=
    Scan.run_selects_first_matches assignment ⟨"u", [], []⟩ "SD" 1 replies [] disk 2 2 pages
      { scan with cache := ⟨"u", [], ["1"]⟩ } (by decide) rfl rfl hprepare hdelivers (by decide) hk
  refine ⟨⟨hpages, hscanned.trans ?_, hfound.trans ?_⟩, hdownloaded.trans ?_, hskipped.trans ?_⟩
  · decide +kernel
  · decide +kernel
  · decide +kernel
  · rw [hfound]
    decide +kernel

end TwoCats

end GalleryScan
