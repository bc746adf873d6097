import GalleryScan.Scan.State

/-!
# Running a scan

Before it looks at anything a scan makes the user's folder, loads the cache and looks up which
images are there. Each page goes into the cache, which is saved, before its items are filtered. When
a page cannot be fetched the cache is saved and the downloads submitted so far still run; other
errors end the scan where they arise.
-/

set_option autoImplicit false

namespace GalleryScan

namespace Scan

/-! ## Items -/

/-- A new match: it is downloaded unless a file is named after it. -/
def take (s : Scan) (k : Key) (r : Record) : Scan :=
  let s := { s with
    matched := s.matched ++ [k]
    tally := { s.tally with found := s.tally.found + 1 } }
  if s.cache.hasFile r.id then
    { s with tally := { s.tally with skipped := s.tally.skipped + 1 } }
  else
    { s with
      tally := { s.tally with downloaded := s.tally.downloaded + 1 }
      slots := s.slots.enqueue ⟨r, none, []⟩ }

def look (s : Scan) (r : Record) : Scan × Except KeyFault Unit :=
  let s := { s with tally := { s.tally with scanned := s.tally.scanned + 1 } }
  if !s.assignment.filter.accepts r.prompt then (s, .ok ())
  else match Key.of? r.id with
    | .error fault => (s, .error fault)
    | .ok k =>
      if s.matched.contains k then
        (s.say [.detail ("Already matched " ++ r.id.plain ++ " on an earlier page")], .ok ())
      else (s.take k r, .ok ())

/-- Looks at items in order, as long as more matches are asked for. -/
def lookAll (s : Scan) : List Record → Scan × Except KeyFault Unit
  | [] => (s, .ok ())
  | r :: rs =>
    if s.isLimitReached then (s, .ok ())
    else match s.look r with
      | (s, .ok ()) => lookAll s rs
      | (s, .error fault) => (s, .error fault)

theorem replies_look (s : Scan) (r : Record) : (s.look r).1.replies = s.replies := by
  simp only [look, take, say]
  repeat' split
  all_goals rfl

theorem replies_lookAll (s : Scan) (rs : List Record) : (s.lookAll rs).1.replies = s.replies := by
  induction rs generalizing s with
  | nil => rfl
  | cons r rs ih =>
    unfold lookAll
    split
    · rfl
    · have hr := replies_look s r
      split
      · rename_i s' h
        rw [ih s', ← hr, h]
      · rename_i s' fault h
        rw [← hr, h]

/-! ## Pages -/

def save (s : Scan) : Scan :=
  let (log, disk, _) := s.cache.save s.disk
  (s.say log).withDisk disk

def query (s : Scan) (cursor : Option Text) : PageQuery :=
  ⟨s.assignment.username, s.assignment.sort, s.assignment.nsfw, PageQuery.usualSize, cursor⟩

/-- Takes in a page: its items go into the cache, which is saved, and are looked at. -/
def takePage (s : Scan) (page : Page) : Scan × Except KeyFault Unit :=
  match s.cache.insertAll page.items with
  | (cache, .error fault) => ({ s with cache }, .error fault)
  | (cache, .ok ()) => (save { s with cache }).lookAll page.items

def pageDetail (number : Nat) (page : Page) : Event :=
  .detail ("Page " ++ Text.ofNat number ++ ": " ++ Text.ofNat page.items.length ++ " item(s), next="
    ++ page.cursor.getD "None")

def emptyReport (username : Text) : Event := .line ("[!] User '" ++ username ++ "' has no images.")

def noteEmpty (s : Scan) : Scan :=
  { s with tally := { s.tally with userEmpty := true } }.say
    [emptyReport s.assignment.username.plain]

def fetch (s : Scan) (cursor : Option Text) : Scan × Except FetchStop Page :=
  let fetched := fetchPage s.assignment.client (s.query cursor) s.replies
  ({ s with replies := fetched.replies }.say fetched.log, fetched.result)

def countPage (s : Scan) (page : Page) : Scan :=
  { s with pages := s.pages + 1 }.say [pageDetail (s.pages + 1) page]

theorem replies_takePage (s : Scan) (page : Page) : (s.takePage page).1.replies = s.replies := by
  unfold takePage
  split
  · rfl
  · rw [replies_lookAll]
    rfl

theorem length_replies_fetch {s s' : Scan} {cursor : Option Text} {page : Page}
    (h : s.fetch cursor = (s', .ok page)) : s'.replies.length < s.replies.length := by
  have hr : (s.fetch cursor).2 = .ok page := by rw [h]
  have hs : (s.fetch cursor).1 = s' := by rw [h]
  exact hs ▸ length_replies_fetchFrom _ _ _ _ _ page hr

/-- Looks through pages from a cursor on. -/
def pagesFrom (s : Scan) (cursor : Option Text) : Scan × Except FetchStop Unit :=
  if s.isLimitReached then (s, .ok ())
  else match _fetched : s.fetch cursor with
    | (s₁, .error e) => (s₁, .error e)
    | (s₁, .ok page) =>
      let s₂ := s₁.countPage page
      -- Only the first page tells that a user has no images: a later empty one may have a cursor.
      if s₂.pages = 1 && page.items.isEmpty then (s₂.noteEmpty, .ok ())
      else match _taken : s₂.takePage page with
        | (s₃, .error fault) => (s₃, .error (.stop (.breakdown (.key fault))))
        | (s₃, .ok ()) =>
          match page.cursor with
          | none | some [] => (s₃, .ok ())
          | some (c :: cs) => pagesFrom s₃ (some (c :: cs))
termination_by s.replies.length
decreasing_by
  have := length_replies_fetch _fetched
  have hs : (takePage s₂ page).1.replies = s₁.replies := replies_takePage s₂ page
  rw [_taken] at hs
  exact hs ▸ this

/-! ## The whole scan -/

/-- What comes before the first look: the user's folder, the cache, the images that are there. -/
def prepare (s : Scan) : Scan × Except ScanStop Unit :=
  match s.disk.makeFolders s.cache.folder with
  | (disk, .error fault) => (s.withDisk disk, .error (.stop (.breakdown (.disk fault))))
  | (disk, .ok ()) =>
    let s := s.withDisk disk
    match s.cache.load s.disk with
    | (log, cache, .error (.key fault)) =>
      ({ s with cache }.say log, .error (.stop (.breakdown (.key fault))))
    | (log, cache, .error (.tooLong digits)) =>
      ({ s with cache }.say log, .error (.stop (.breakdown (.longNumber digits))))
    | (log, cache, .ok ()) =>
      let s := { s with cache }.say log
      match s.cache.indexFiles s.disk with
      | .error fault => (s, .error (.stop (.breakdown (.disk fault))))
      | .ok cache =>
        if s.assignment.offline && cache.isEmpty then
          ({ s with cache, phase := .aborted }, .error (.nothingCached cache.path))
        else if s.canShowBars then ({ s with cache }, .ok ())
        else ({ s with cache }, .error (.stop (.breakdown .tooLarge)))

/-- Looks through the cache or through the pages. -/
def lookThrough (s : Scan) : Scan × Except FetchStop Unit :=
  if s.assignment.offline then
    match s.lookAll s.cache.records with
    | (s, .ok ()) => (s, .ok ())
    | (s, .error fault) => (s, .error (.stop (.breakdown (.key fault))))
  else s.pagesFrom none

/-- What keeps the downloads that have been submitted from starting. -/
def hindrance? (s : Scan) : Option Breakdown :=
  if s.slots.waiting.isEmpty then none else s.assignment.hindrance

def drain (s : Scan) : Scan × Except Stop Unit :=
  match s.hindrance? with
  | some b =>
    ({ s with phase := .draining, slots := { s.slots with waiting := [] } }, .error (.breakdown b))
  | none =>
    let s := { s with phase := .draining, slots := s.slots.drain }
    match s.slots.stop with
    | none => (s, .ok ())
    | some stop => (s, .error stop)

def run (s : Scan) : Scan × Except ScanStop Unit :=
  match s.prepare with
  | (s, .error e) => (s, .error e)
  | (s, .ok ()) =>
    match { s with phase := .scanning }.lookThrough with
    | (s, .error (.stop stop)) => (s, .error (.stop stop))
    | (s, .error (.error e)) =>
      -- What was found before the page that failed is kept, and its downloads run.
      match s.save.drain with
      | (s, .error stop) => (s, .error (.stop stop))
      | (s, .ok ()) => ({ s with phase := .aborted }, .error (.fetch e))
    | (s, .ok ()) =>
      match s.drain with
      | (s, .error stop) => (s, .error (.stop stop))
      | (s, .ok ()) => ({ s.save with phase := .done }, .ok ())

end Scan

end GalleryScan
