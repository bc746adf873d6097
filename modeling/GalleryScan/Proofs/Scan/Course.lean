import GalleryScan.Proofs.Cache.Overlay
import GalleryScan.Proofs.Scan.Paging

/-!
# The course of a scan through its pages

The loop over pages takes in page after page, until it leaves off in one of a few ways. A `Course`
is such a run of the loop with the pages that it has fetched, and the loop has one from every state:

> `∃ pages, Course s cursor pages (s.pagesFrom cursor).1 (s.pagesFrom cursor).2`

So what a page that is taken in preserves, the loop does, and every request for a page is sent from
a state that a number of pages have led to. The pages are those that the replies deliver, and what
has been counted is what their items come to.
-/

set_option autoImplicit false

namespace GalleryScan

/-! ## Requests in a log -/

namespace Log

/-- More has happened, but no page has been asked for. -/
structure Grows (l l' : Log) : Prop where
  front : l <+: l'
  requests : l'.pageRequests = l.pageRequests

theorem Grows.refl (l : Log) : Grows l l := ⟨List.prefix_rfl, rfl⟩

theorem Grows.trans {l l' l'' : Log} (h : Grows l l') (h' : Grows l' l'') : Grows l l'' :=
  ⟨h.front.trans h'.front, h'.requests.trans h.requests⟩

theorem grows_append (l : Log) {more : Log} (h : more.pageRequests = []) : Grows l (l ++ more) :=
  ⟨List.prefix_append .., by rw [pageRequests_append, h, List.append_nil]⟩

/-- What ends with an event lies before the longer log or in it. -/
theorem prefix_or {l l' front : Log} {e : Event} (hl : l <+: l') (h : front ++ [e] <+: l') :
    front ++ [e] <+: l ∨ l <+: front := by
  rcases List.prefix_or_prefix_of_prefix h hl with hfirst | hfirst
  · exact .inl hfirst
  · rcases List.prefix_concat_iff.mp hfirst with heq | hfront
    · exact .inl (heq ▸ List.prefix_rfl)
    · exact .inr hfront

/-- A page has been asked for before nothing but other things happened. -/
theorem Grows.asked {l l' front : Log} {r : Request} (h : Grows l l')
    (hr : r.parameters.isSome = true) (hfront : front ++ [.request r] <+: l') :
    front ++ [.request r] <+: l := by
  rcases prefix_or h.front hfront with hbefore | ⟨rest, rfl⟩
  · exact hbefore
  · obtain ⟨more, rfl⟩ := hfront
    have hpage : pageRequests [.request r] = [r] := List.filter_cons_of_pos hr
    have hrequests := congrArg List.length h.requests
    simp only [pageRequests_append, hpage, List.length_append, List.length_singleton] at hrequests
    omega

/-- What no page is asked for in is no log up to such a request. -/
theorem not_asked {l front : Log} {r : Request} (h : l.pageRequests = [])
    (hr : r.parameters.isSome = true) : ¬ front ++ [.request r] <+: l := by
  intro hfront
  have hgrows : Grows [] l := ⟨List.nil_prefix, h⟩
  have hnone := List.prefix_nil.mp (hgrows.asked hr hfront)
  cases (List.append_eq_nil_iff.mp hnone).2

end Log

namespace Scan

/-! ## What looking leaves alone -/

/-- The second scan differs from the first in what it has found and said, and in the jobs that wait;
no page has been asked for in between. -/
structure Rests (s s' : Scan) : Prop where
  cache : s'.cache = s.cache
  disk : s'.disk = s.disk
  folder : s'.slots.folder = s.slots.folder
  running : s'.slots.running = s.slots.running
  log : s.log.Grows s'.log

theorem Rests.refl (s : Scan) : Rests s s := ⟨rfl, rfl, rfl, rfl, .refl _⟩

theorem Rests.trans {s s' s'' : Scan} (h : Rests s s') (h' : Rests s' s'') : Rests s s'' where
  cache := h'.cache.trans h.cache
  disk := h'.disk.trans h.disk
  folder := h'.folder.trans h.folder
  running := h'.running.trans h.running
  log := h.log.trans h'.log

theorem rests_say (s : Scan) {log : Log} (h : log.pageRequests = []) : Rests s (s.say log) :=
  ⟨rfl, rfl, rfl, rfl, Log.grows_append _ h⟩

theorem rests_take (s : Scan) (k : Key) (r : Record) : Rests s (s.take k r) := by
  unfold take
  dsimp only
  split <;> exact ⟨rfl, rfl, rfl, rfl, .refl _⟩

theorem rests_look (s : Scan) (r : Record) : Rests s (s.look r).1 := by
  have hscan : Rests s s.glance := ⟨rfl, rfl, rfl, rfl, .refl _⟩
  rcases look_cases s r with ⟨result, hr⟩ | ⟨t, hr⟩ | ⟨k, hr⟩
  · rwa [hr]
  · rw [hr]
    exact hscan.trans (rests_say _ rfl)
  · rw [hr]
    exact hscan.trans (rests_take _ _ _)

theorem rests_lookAll (s : Scan) (items : List Record) : Rests s (s.lookAll items).1 :=
  lookAll_keeps (fun t r _ ht => ht.trans (rests_look t r)) (.refl s)

/-! ## Taking in a page -/

theorem grows_save (s : Scan) : s.log.Grows s.save.log :=
  Log.grows_append _ (pageRequests_write _ _)

theorem grows_countPage (s : Scan) (p : Page) : s.log.Grows (s.countPage p).log :=
  Log.grows_append _ rfl

/-- The items of a page that is taken in have keys, the cache is saved with them, and then they are
looked at. -/
theorem takePage_eq_ok {s s' : Scan} {p : Page} (h : s.takePage p = (s', .ok ())) :
    ∃ es, s.cache.entries.insertAll p.items = (es, .ok ())
      ∧ (save { s with cache := { s.cache with entries := es } }).lookAll p.items
        = (s', .ok ()) := by
  unfold takePage Cache.insertAll at h
  cases hinsert : s.cache.entries.insertAll p.items with
  | mk es result =>
    rw [hinsert] at h
    cases result with
    | error fault => cases h
    | ok _ => exact ⟨es, rfl, h⟩

theorem grows_takePage (s : Scan) (p : Page) : s.log.Grows (s.takePage p).1.log := by
  unfold takePage Cache.insertAll
  cases s.cache.entries.insertAll p.items with
  | mk es result =>
    cases result with
    | error fault => exact .refl _
    | ok _ =>
      have hsave := grows_save { s with cache := { s.cache with entries := es } }
      exact hsave.trans (rests_lookAll _ p.items).log

/-- The state in which a page that was asked for at a cursor is taken in. -/
def arrived (s : Scan) (cursor : Option Text) (p : Page) : Scan := (s.fetch cursor).1.countPage p

/-- A page is fetched and taken in, which the first one is only if there are images on it. -/
structure TakesIn (s : Scan) (cursor : Option Text) (p : Page) (s' : Scan) : Prop where
  goes : ¬ s.isLimitReached = true
  fetched : (s.fetch cursor).2 = .ok p
  images : ¬ ((s.arrived cursor p).pages = 1 ∧ p.items = [])
  taken : (s.arrived cursor p).takePage p = (s', .ok ())

/-! ## The loop -/

/-- From the state at the cursor, these pages have led to that state, from which the loop goes on at
that cursor. -/
inductive Passes : Scan → Option Text → List Page → Scan → Option Text → Prop where
  | here (s : Scan) (cursor : Option Text) : Passes s cursor [] s cursor
  | on {s s₁ t : Scan} {cursor c : Option Text} {p : Page} {pages : List Page}
      (first : TakesIn s cursor p s₁) (more : ¬ p.IsLast) (rest : Passes s₁ p.cursor pages t c) :
      Passes s cursor (p :: pages) t c

/-- From the state at the cursor, the loop fetches these pages and leaves off in that state. -/
inductive Course : Scan → Option Text → List Page → Scan → Except FetchStop Unit → Prop where
  | full {s : Scan} {cursor : Option Text} (limit : s.isLimitReached = true) :
      Course s cursor [] s (.ok ())
  | failed {s : Scan} {cursor : Option Text} (e : FetchStop) (goes : ¬ s.isLimitReached = true)
      (fetched : (s.fetch cursor).2 = .error e) : Course s cursor [] (s.fetch cursor).1 (.error e)
  | noImages {s : Scan} {cursor : Option Text} (p : Page) (goes : ¬ s.isLimitReached = true)
      (fetched : (s.fetch cursor).2 = .ok p) (first : (s.arrived cursor p).pages = 1)
      (empty : p.items = []) : Course s cursor [p] (s.arrived cursor p).noteEmpty (.ok ())
  | noKey {s s₃ : Scan} {cursor : Option Text} (p : Page) (fault : KeyFault)
      (goes : ¬ s.isLimitReached = true) (fetched : (s.fetch cursor).2 = .ok p)
      (taken : (s.arrived cursor p).takePage p = (s₃, .error fault)) :
      Course s cursor [p] s₃ (.error (.stop (.breakdown (.key fault))))
  | last {s s' : Scan} {cursor : Option Text} (p : Page) (first : TakesIn s cursor p s')
      (isLast : p.IsLast) : Course s cursor [p] s' (.ok ())
  | more {s s₁ s' : Scan} {cursor : Option Text} {p : Page} {pages : List Page}
      {r : Except FetchStop Unit} (first : TakesIn s cursor p s₁) (more : ¬ p.IsLast)
      (rest : Course s₁ p.cursor pages s' r) : Course s cursor (p :: pages) s' r

/-- A page that cannot be fetched ends the loop. -/
theorem pagesFrom_failed {s : Scan} {cursor : Option Text} {e : FetchStop}
    (hlimit : ¬ s.isLimitReached = true) (hfetch : (s.fetch cursor).2 = .error e) :
    s.pagesFrom cursor = ((s.fetch cursor).1, .error e) := by
  rw [pagesFrom, if_neg hlimit]
  split
  · rename_i hfail
    rw [hfail] at hfetch ⊢
    cases hfetch
    rfl
  · rename_i hpage
    rw [hpage] at hfetch
    cases hfetch

/-- A page with an item that can have no key ends the loop. -/
theorem pagesFrom_noKey {s s₃ : Scan} {cursor : Option Text} {p : Page} {fault : KeyFault}
    (hlimit : ¬ s.isLimitReached = true) (hfetch : (s.fetch cursor).2 = .ok p)
    (htake : (s.arrived cursor p).takePage p = (s₃, .error fault)) :
    s.pagesFrom cursor = (s₃, .error (.stop (.breakdown (.key fault)))) := by
  -- A page without items has none that could have no key.
  have hitems : p.items.isEmpty = false := by
    cases hp : p.items with
    | nil =>
      rw [takePage, Cache.insertAll, hp] at htake
      cases htake
    | cons r rs => rfl
  rw [pagesFrom_fetched hlimit (Prod.ext rfl hfetch), if_neg (by simp [hitems]),
    show (s.fetch cursor).1.countPage p = s.arrived cursor p from rfl, htake]

/-- By induction on the replies that are left, of which every page takes at least one. -/
theorem exists_course (s : Scan) (cursor : Option Text) :
    ∃ pages, Course s cursor pages (s.pagesFrom cursor).1 (s.pagesFrom cursor).2 := by
  induction hn : s.replies.length using Nat.strong_induction_on generalizing s cursor with
  | h n ih =>
    subst hn
    by_cases hlimit : s.isLimitReached = true
    · rw [pagesFrom_full hlimit]
      exact ⟨[], .full hlimit⟩
    cases hresult : (s.fetch cursor).2 with
    | error e =>
      rw [pagesFrom_failed hlimit hresult]
      exact ⟨[], .failed e hlimit hresult⟩
    | ok p =>
      have hfetch : s.fetch cursor = ((s.fetch cursor).1, .ok p) := Prod.ext rfl hresult
      by_cases hempty : (s.arrived cursor p).pages = 1 ∧ p.items = []
      · rw [pagesFrom_empty hlimit hfetch hempty.1 hempty.2]
        exact ⟨[p], .noImages p hlimit hresult hempty.1 hempty.2⟩
      cases htake : (s.arrived cursor p).takePage p with
      | mk s₃ result =>
        cases result with
        | error fault =>
          rw [pagesFrom_noKey hlimit hresult htake]
          exact ⟨[p], .noKey p fault hlimit hresult htake⟩
        | ok _ =>
          have hfirst : TakesIn s cursor p s₃ := ⟨hlimit, hresult, hempty, htake⟩
          obtain ⟨hends, hgoes⟩ := pagesFrom_page hlimit hfetch hempty htake
          by_cases hlast : p.IsLast
          · rw [hends hlast]
            exact ⟨[p], .last p hfirst hlast⟩
          · -- Only the fetching takes replies, so fewer are left for the rest.
            have hreplies : s₃.replies = (s.fetch cursor).1.replies := by
              have htaken := replies_takePage (s.arrived cursor p) p
              rwa [htake] at htaken
            obtain ⟨pages, hrest⟩ := ih s₃.replies.length
              (hreplies ▸ length_replies_fetch hfetch) s₃ p.cursor rfl
            rw [hgoes hlast]
            exact ⟨p :: pages, .more hfirst hlast hrest⟩

/-! ## What the pages and the requests are -/

variable {s s' t : Scan} {cursor c : Option Text} {p : Page} {pages : List Page}
  {r : Except FetchStop Unit}

theorem TakesIn.steady (h : TakesIn s cursor p s') : Steady (s.arrived cursor p) s' := by
  have hsteady := steady_takePage (s.arrived cursor p) p
  rwa [h.taken] at hsteady

/-- The items of a page are looked at behind a save, for which only the cache has changed. -/
theorem TakesIn.exists_save (h : TakesIn s cursor p s') :
    ∃ s₁ : Scan, s₁.slots = (s.arrived cursor p).slots
      ∧ s₁.save.lookAll p.items = (s', .ok ()) := by
  obtain ⟨es, _, hlook⟩ := takePage_eq_ok h.taken
  exact ⟨{ s.arrived cursor p with cache := { s.cache with entries := es } }, rfl, hlook⟩

theorem TakesIn.assignment (h : TakesIn s cursor p s') : s'.assignment = s.assignment :=
  h.steady.assignment

theorem TakesIn.grows (h : TakesIn s cursor p s') : (s.fetch cursor).1.log.Grows s'.log := by
  have htake := grows_takePage (s.arrived cursor p) p
  rw [h.taken] at htake
  exact (grows_countPage _ p).trans htake

/-- What these pages have led to is what the loop goes on with. -/
theorem Passes.pagesFrom (h : Passes s cursor pages t c) :
    s.pagesFrom cursor = t.pagesFrom c := by
  induction h with
  | here s cursor => rfl
  | on first more rest ih =>
    have hpage := pagesFrom_page first.goes (Prod.ext rfl first.fetched) first.images first.taken
    exact (hpage.2 more).trans ih

/-- A course is the only one: it is what the loop does. -/
theorem Course.pagesFrom (h : Course s cursor pages s' r) : s.pagesFrom cursor = (s', r) := by
  induction h with
  | full limit => exact pagesFrom_full limit
  | failed e goes fetched => exact pagesFrom_failed goes fetched
  | noImages p goes fetched first empty =>
    exact pagesFrom_empty goes (Prod.ext rfl fetched) first empty
  | noKey p fault goes fetched taken => exact pagesFrom_noKey goes fetched taken
  | last p first isLast =>
    exact (pagesFrom_page first.goes (Prod.ext rfl first.fetched) first.images first.taken).1 isLast
  | more first more rest ih =>
    have hpage := pagesFrom_page first.goes (Prod.ext rfl first.fetched) first.images first.taken
    exact (hpage.2 more).trans ih

theorem front_fetch (s : Scan) (cursor : Option Text) : s.log <+: (s.fetch cursor).1.log :=
  List.prefix_append ..

theorem Course.front (h : Course s cursor pages s' r) : s.log <+: s'.log := by
  induction h with
  | full limit => exact List.prefix_rfl
  | failed e goes fetched => exact front_fetch _ _
  | noImages p goes fetched first empty =>
    exact ((front_fetch _ _).trans (grows_countPage _ p).front).trans (List.prefix_append ..)
  | @noKey s s₃ cursor p fault goes fetched taken =>
    have htake := grows_takePage (s.arrived cursor p) p
    rw [taken] at htake
    exact ((front_fetch _ _).trans (grows_countPage _ p).front).trans htake.front
  | last p first isLast => exact (front_fetch _ _).trans first.grows.front
  | more first more rest ih => exact ((front_fetch _ _).trans first.grows.front).trans ih

/-- The pages are those that the replies deliver, one after the other. -/
theorem TakesIn.delivers (h : TakesIn s cursor p s')
    (hrest : Delivers s'.assignment p.cursor s'.replies pages) :
    Delivers s.assignment cursor s.replies (p :: pages) := by
  refine ⟨h.fetched, ?_⟩
  rw [h.assignment, h.steady.replies] at hrest
  exact hrest

theorem Passes.delivers (h : Passes s cursor pages t c) :
    Delivers s.assignment cursor s.replies pages := by
  induction h with
  | here s cursor => trivial
  | on first more rest ih => exact first.delivers ih

theorem Course.delivers (h : Course s cursor pages s' r) :
    Delivers s.assignment cursor s.replies pages := by
  induction h with
  | full limit => trivial
  | failed e goes fetched => trivial
  | noImages p goes fetched first empty => exact ⟨fetched, trivial⟩
  | noKey p fault goes fetched taken => exact ⟨fetched, trivial⟩
  | last p first isLast => exact first.delivers trivial
  | more first more rest ih => exact first.delivers ih

/-- The replies deliver but one list of pages of a given length. -/
theorem delivers_unique {a : Assignment} {replies : List ListingReply} {pages pages' : List Page}
    (h : Delivers a cursor replies pages) (h' : Delivers a cursor replies pages')
    (hlength : pages.length = pages'.length) : pages = pages' := by
  induction pages generalizing cursor replies pages' with
  | nil => exact (List.length_eq_zero_iff.mp hlength.symm).symm
  | cons p ps ih =>
    cases pages' with
    | nil => cases hlength
    | cons q qs =>
      obtain ⟨hp, hps⟩ := h
      obtain ⟨hq, hqs⟩ := h'
      obtain rfl : p = q := Except.ok.inj (hp.symm.trans hq)
      rw [ih hps hqs (Nat.succ.inj hlength)]

/-! ## What has been counted -/

/-- The items of a page that is taken in are looked at up to the last match asked for. -/
theorem TakesIn.counted {n : Nat} {before : List Record} (h : TakesIn s cursor p s')
    (hs : s.Counted (s.assignment.filter.lookedAt n before))
    (hn : s.assignment.limit = some (n : Int)) :
    s'.Counted (s.assignment.filter.lookedAt n (before ++ p.items)) := by
  obtain ⟨es, hes, _⟩ := takePage_eq_ok h.taken
  have hkeys := ((Entries.overlaid_nil (s.arrived cursor p).cache.entries).insertAll hes).keyed
  have harrived := hs.countPage (Prod.ext rfl h.fetched)
  obtain ⟨s'', htake, _, hs''⟩ := Counted.takePage harrived hn hkeys
  have hs' : s' = s'' := congrArg Prod.fst (h.taken.symm.trans htake)
  rw [hs']
  exact hs''

/-- And so are those of all pages, however the loop leaves off, unless something ends the
program. -/
theorem Course.counted {n : Nat} {prior : List Page} (h : Course s cursor pages s' r)
    (hs : s.Counted (s.assignment.filter.lookedAt n (itemsOf prior)))
    (hn : s.assignment.limit = some (n : Int)) (hr : ∀ stop, r ≠ .error (.stop stop)) :
    s'.Counted (s.assignment.filter.lookedAt n (itemsOf (prior ++ pages))) := by
  induction h generalizing prior with
  | full limit => rwa [List.append_nil]
  | failed e goes fetched =>
    rw [List.append_nil]
    exact { hs with }
  | noImages p goes fetched first empty =>
    rw [itemsOf_append, itemsOf_singleton, empty, List.append_nil]
    exact { hs with }
  | noKey p fault goes fetched taken => exact absurd rfl (hr _)
  | last p first isLast =>
    rw [itemsOf_append, itemsOf_singleton]
    exact first.counted hs hn
  | more first more rest ih =>
    have hs₁ := first.counted hs hn
    rw [← itemsOf_singleton, ← itemsOf_append, ← first.assignment] at hs₁
    rw [← first.assignment] at hn
    have hs' := ih hs₁ hn hr
    rwa [first.assignment, List.append_assoc] at hs'

theorem Course.assignment (h : Course s cursor pages s' r) : s'.assignment = s.assignment := by
  induction h with
  | full limit => rfl
  | failed e goes fetched => rfl
  | noImages p goes fetched first empty => rfl
  | @noKey s s₃ cursor p fault goes fetched taken =>
    have hsteady := steady_takePage (s.arrived cursor p) p
    rw [taken] at hsteady
    exact hsteady.assignment
  | last p first isLast => exact first.assignment
  | more first more rest ih => exact ih.trans first.assignment

/-! ## Where a page has been asked for -/

/-- A page that is asked for in the loop is asked for from a state that pages have led to, while it
is fetched there. -/
theorem Course.asked {front : Log} {req : Request} (h : Course s cursor pages s' r)
    (hreq : req.parameters.isSome = true) (hstart : s.log <+: front)
    (hfront : front ++ [.request req] <+: s'.log) :
    ∃ pages t c, Passes s cursor pages t c ∧ ¬ t.isLimitReached = true ∧ t.log <+: front
      ∧ front ++ [.request req] <+: (t.fetch c).1.log := by
  induction h with
  | full limit =>
    have hlength := hfront.length_le
    have hle := hstart.length_le
    rw [List.length_append, List.length_singleton] at hlength
    omega
  | failed e goes fetched => exact ⟨[], _, _, .here _ _, goes, hstart, hfront⟩
  | @noImages s cursor p goes fetched first empty =>
    have hgrows : (s.fetch cursor).1.log.Grows (s.arrived cursor p).noteEmpty.log :=
      (grows_countPage _ p).trans (Log.grows_append _ rfl)
    exact ⟨[], _, _, .here _ _, goes, hstart, hgrows.asked hreq hfront⟩
  | @noKey s s₃ cursor p fault goes fetched taken =>
    have htake := grows_takePage (s.arrived cursor p) p
    rw [taken] at htake
    have hgrows := (grows_countPage (s.fetch cursor).1 p).trans htake
    exact ⟨[], _, _, .here _ _, goes, hstart, hgrows.asked hreq hfront⟩
  | last p first isLast =>
    exact ⟨[], _, _, .here _ _, first.goes, hstart, first.grows.asked hreq hfront⟩
  | @more s s₁ s' cursor p pages r first more rest ih =>
    -- The page was asked for before this one was taken in, or after it.
    have hlater : s₁.log <+: s'.log := rest.front
    rcases Log.prefix_or hlater hfront with hbefore | hafter
    · exact ⟨[], _, _, .here _ _, first.goes, hstart, first.grows.asked hreq hbefore⟩
    · obtain ⟨before, t, c, hpasses, hgoes, ht, hasked⟩ := ih hafter hfront
      exact ⟨p :: before, t, c, .on first more hpasses, hgoes, ht, hasked⟩

/-! ## Behind the loop -/

theorem run_of_error {s s₀ s₁ s₂ : Scan} {e : FetchError}
    (hprepare : s.prepare = (s₀, .ok ()))
    (hlook : lookThrough { s₀ with phase := .scanning } = (s₁, .error (.error e)))
    (hdrain : s₁.save.drain = (s₂, .ok ())) :
    s.run = ({ s₂ with phase := .aborted }, .error (.fetch e)) := by
  unfold run
  rw [hprepare]
  dsimp only
  rw [hlook]
  dsimp only
  rw [hdrain]

theorem run_of_ok {s s₀ s₁ s₂ : Scan} (hprepare : s.prepare = (s₀, .ok ()))
    (hlook : lookThrough { s₀ with phase := .scanning } = (s₁, .ok ()))
    (hdrain : s₁.drain = (s₂, .ok ())) : s.run = ({ s₂.save with phase := .done }, .ok ()) := by
  unfold run
  rw [hprepare]
  dsimp only
  rw [hlook]
  dsimp only
  rw [hdrain]

end Scan

end GalleryScan
