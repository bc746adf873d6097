import GalleryScan.Proofs.Cache.Overlay
import GalleryScan.Proofs.Listing.Asking
import GalleryScan.Proofs.Scan.Looking
import Mathlib.Order.Bounds.Basic

/-!
# Looking through pages

The loop over pages takes pages up to the first one after which it `Ends`: there were no images at
all, there are as many matches as asked for, or the listing goes no further. Its invariant is the
one of `Proofs/Scan/Looking`, about the items of all pages taken so far:

> `s'.Counted (f.lookedAt n (itemsOf (prior ++ pages.take k)))`

where `k` is the least number of pages that ends it. Each page has been asked for at the cursor of
the one before it, and nothing else has.
-/

set_option autoImplicit false

namespace GalleryScan

/-- The items of pages, in order. -/
def itemsOf (pages : List Page) : List Record := pages.flatMap Page.items

/-- The listing goes no further. -/
def Page.IsLast (p : Page) : Prop := p.cursor = none ∨ p.cursor = some []

/-- Why no page is asked for after these, where `n` matches are. -/
inductive Ends (f : Filter) (n : Nat) (pages : List Page) : Prop where
  | noImages (p : Page) (single : pages = [p]) (empty : p.items = [])
  | enough (found : n ≤ (f.matchedIds (itemsOf pages)).card)
  | last (p : Page) (final : pages.getLast? = some p) (isLast : p.IsLast)

/-- The query for the page at a cursor. -/
def Assignment.query (a : Assignment) (cursor : Option Text) : PageQuery :=
  ⟨a.username, a.sort, a.nsfw, PageQuery.usualSize, cursor⟩

/-- The request for the page at a cursor. -/
def Assignment.request (a : Assignment) (cursor : Option Text) : Request :=
  a.client.request (a.query cursor)

/-- The replies deliver these pages, each at the cursor of the one before it. -/
def Delivers (a : Assignment) : Option Text → List ListingReply → List Page → Prop
  | _, _, [] => True
  | cursor, replies, p :: ps =>
    (fetchPage a.client (a.query cursor) replies).result = .ok p
      ∧ Delivers a p.cursor (fetchPage a.client (a.query cursor) replies).replies ps

/-- The second list has the requests of the first one in their order, each of them once or several
times in a row. -/
def Repeating : List Request → List Request → Prop
  | [], sent => sent = []
  | r :: rs, sent => ∃ tries rest, 1 ≤ tries ∧ sent = List.replicate tries r ++ rest
      ∧ Repeating rs rest

theorem itemsOf_append (ps qs : List Page) : itemsOf (ps ++ qs) = itemsOf ps ++ itemsOf qs :=
  List.flatMap_append

theorem itemsOf_singleton (p : Page) : itemsOf [p] = p.items := List.flatMap_singleton ..

theorem Repeating.append {rs rs' sent sent' : List Request} (h : Repeating rs sent)
    (h' : Repeating rs' sent') : Repeating (rs ++ rs') (sent ++ sent') := by
  induction rs generalizing sent with
  | nil =>
    have hsent : sent = [] := h
    rwa [hsent]
  | cons r rs ih =>
    obtain ⟨tries, rest, hpos, rfl, hrest⟩ := h
    exact ⟨tries, rest ++ sent', hpos, List.append_assoc .., ih hrest⟩

/-- With a page that is not the last one the end can only come from what it supplies. -/
theorem Ends.enough_of_not_last {f : Filter} {n : Nat} {prior : List Page} {p : Page}
    (h : Ends f n (prior ++ [p])) (hempty : ¬ (prior = [] ∧ p.items = [])) (hlast : ¬ p.IsLast) :
    n ≤ (f.matchedIds (itemsOf (prior ++ [p]))).card := by
  cases h with
  | noImages q single empty =>
    have hprior : prior = [] := by
      have := congrArg List.length single
      exact List.eq_nil_of_length_eq_zero (by simpa using this)
    subst hprior
    cases single
    exact absurd ⟨rfl, empty⟩ hempty
  | enough found => exact found
  | last q final isLast =>
    rw [List.getLast?_concat] at final
    cases final
    exact absurd isLast hlast

/-! ## The first end -/

section FirstEnd

variable {f : Filter} {n k : Nat} {prior pages : List Page} {p : Page}

/-- With `k` more of these pages the scan ends for the first time. -/
def FirstEnd (f : Filter) (n : Nat) (prior pages : List Page) (k : Nat) : Prop :=
  IsLeast {j | 1 ≤ j ∧ j ≤ pages.length ∧ Ends f n (prior ++ pages.take j)} k

theorem FirstEnd.ne_nil (h : FirstEnd f n prior pages k) : pages ≠ [] := by
  rintro rfl
  obtain ⟨⟨hpos, hle, _⟩, _⟩ := h
  rw [List.length_nil] at hle
  omega

theorem FirstEnd.eq_one (h : FirstEnd f n prior (p :: pages) k) (he : Ends f n (prior ++ [p])) :
    k = 1 := by
  have hle : k ≤ 1 := h.2 ⟨Nat.le_refl 1, by simp, he⟩
  have hpos := h.1.1
  omega

theorem FirstEnd.tail (h : FirstEnd f n prior (p :: pages) k) (he : ¬ Ends f n (prior ++ [p])) :
    ∃ j, k = j + 1 ∧ FirstEnd f n (prior ++ [p]) pages j := by
  obtain ⟨⟨hpos, hle, hend⟩, hleast⟩ := h
  obtain ⟨j, rfl⟩ : ∃ j, k = j + 1 := ⟨k - 1, by omega⟩
  refine ⟨j, rfl, ⟨?_, ?_, ?_⟩, ?_⟩
  · -- The scan does not end with the first page, so it takes another one.
    rcases Nat.eq_zero_or_pos j with rfl | hj
    · exact absurd hend he
    · exact hj
  · simpa using hle
  · rwa [List.append_assoc]
  · rintro i ⟨hi, hile, hiend⟩
    rw [List.append_assoc] at hiend
    have := hleast ⟨Nat.le_add_left 1 i, by simpa using hile, hiend⟩
    omega

end FirstEnd

namespace Scan

/-! ## One page -/

/-- Nothing is asked for to save a cache. -/
theorem requests_save (c : Cache) (d : Disk) : (c.save d).1.requests = [] := by
  unfold Cache.save
  split <;> rfl

theorem pageRequests_write (c : Cache) (d : Disk) : (c.save d).1.pageRequests = [] := by
  rw [Log.pageRequests, requests_save, List.filter_nil]

theorem save_eq (s : Scan) :
    s.save = (s.say (s.cache.save s.disk).1).withDisk (s.cache.save s.disk).2.1 := rfl

theorem steady_save (s : Scan) : Steady s s.save := by
  refine ⟨rfl, rfl, rfl, rfl, rfl, ?_⟩
  show Log.pageRequests (s.log ++ (s.cache.save s.disk).1) = _
  rw [Log.pageRequests_append, pageRequests_write, List.append_nil]

/-- Saving changes nothing that has been counted. -/
theorem Counted.save {s : Scan} {seen : List Record} (h : s.Counted seen) : s.save.Counted seen :=
  { h with }

theorem steady_takePage (s : Scan) (p : Page) : Steady s (s.takePage p).1 := by
  unfold takePage Cache.insertAll
  cases s.cache.entries.insertAll p.items with
  | mk es result =>
    have hcached : Steady s { s with cache := { s.cache with entries := es } } :=
      ⟨rfl, rfl, rfl, rfl, rfl, rfl⟩
    cases result with
    | error fault => exact hcached
    | ok _ => exact (hcached.trans (steady_save _)).trans (steady_lookAll _ p.items)

/-- Taking in a page changes entries and disk, and then looks at the items of the page. -/
theorem Counted.takePage {s : Scan} {n : Nat} {before : List Record} {p : Page}
    (h : s.Counted (s.assignment.filter.lookedAt n before))
    (hn : s.assignment.limit = some (n : Int)) (hkeys : ∀ r ∈ p.items, r.key?.isSome) :
    ∃ s', s.takePage p = (s', .ok ()) ∧ Steady s s'
      ∧ s'.Counted (s.assignment.filter.lookedAt n (before ++ p.items)) := by
  obtain ⟨es, hes⟩ := Entries.insertAll_ok hkeys s.cache.entries
  have hinsert : s.cache.insertAll p.items = ({ s.cache with entries := es }, .ok ()) := by
    rw [Cache.insertAll, hes]
  have hcached : Counted { s with cache := { s.cache with entries := es } }
      (s.assignment.filter.lookedAt n before) := { h with }
  obtain ⟨s', hall, hs'⟩ := hcached.save.lookAll p.items hn hkeys
  have htake : s.takePage p = (s', .ok ()) := by
    rw [Scan.takePage, hinsert]
    exact hall
  have hsteady := steady_takePage s p
  rw [htake] at hsteady
  exact ⟨s', htake, hsteady, hs'⟩

theorem steady_noteEmpty (s : Scan) : Steady s s.noteEmpty :=
  (show Steady s { s with tally := { s.tally with userEmpty := true } } from
    ⟨rfl, rfl, rfl, rfl, rfl, rfl⟩).trans (steady_say _ rfl)

/-! ## The loop -/

section Loop

variable {s s₁ s₃ : Scan} {cursor : Option Text} {p : Page}

theorem pagesFrom_full (hlimit : s.isLimitReached = true) :
    s.pagesFrom cursor = (s, .ok ()) := by
  rw [pagesFrom, if_pos hlimit]

/-- What a fetched page comes to: as a first one without images it ends the loop, with an item that
can have no key it breaks the loop off, and else the loop goes on where the listing does. -/
theorem pagesFrom_fetched (hlimit : ¬ s.isLimitReached = true)
    (hfetch : s.fetch cursor = (s₁, .ok p)) :
    s.pagesFrom cursor =
      if (s₁.countPage p).pages = 1 && p.items.isEmpty then ((s₁.countPage p).noteEmpty, .ok ())
      else match (s₁.countPage p).takePage p with
        | (s₃, .error fault) => (s₃, .error (.stop (.breakdown (.key fault))))
        | (s₃, .ok ()) =>
          match p.cursor with
          | none | some [] => (s₃, .ok ())
          | some (c :: cs) => s₃.pagesFrom (some (c :: cs)) := by
  rw [pagesFrom, if_neg hlimit]
  split
  · rename_i hfail
    rw [hfetch] at hfail
    cases hfail
  · rename_i hpage
    rw [hfetch] at hpage
    cases hpage
    dsimp only
    by_cases hempty : ((s₁.countPage p).pages = 1 && p.items.isEmpty) = true
    · rw [if_pos hempty, if_pos hempty]
    · rw [if_neg hempty, if_neg hempty]
      split
      · rename_i htake
        exact htake ▸ rfl
      · rename_i htake
        exact htake ▸ rfl

theorem pagesFrom_empty (hlimit : ¬ s.isLimitReached = true)
    (hfetch : s.fetch cursor = (s₁, .ok p)) (hpages : (s₁.countPage p).pages = 1)
    (hitems : p.items = []) : s.pagesFrom cursor = ((s₁.countPage p).noteEmpty, .ok ()) := by
  rw [pagesFrom_fetched hlimit hfetch, if_pos (by simp [hpages, hitems])]

/-- Any page but an empty first one is taken in, and the loop goes on where the listing does. -/
theorem pagesFrom_page (hlimit : ¬ s.isLimitReached = true)
    (hfetch : s.fetch cursor = (s₁, .ok p))
    (hitems : ¬ ((s₁.countPage p).pages = 1 ∧ p.items = []))
    (htake : (s₁.countPage p).takePage p = (s₃, .ok ())) :
    (p.IsLast → s.pagesFrom cursor = (s₃, .ok ()))
      ∧ (¬ p.IsLast → s.pagesFrom cursor = s₃.pagesFrom p.cursor) := by
  rw [pagesFrom_fetched hlimit hfetch, if_neg (by simpa using hitems), htake]
  dsimp only
  split
  · rename_i hc
    exact ⟨fun _ => rfl, fun h => absurd (.inl hc) h⟩
  · rename_i hc
    exact ⟨fun _ => rfl, fun h => absurd (.inr hc) h⟩
  · rename_i c cs hc
    refine ⟨fun h => ?_, fun _ => by rw [hc]⟩
    rcases h with h | h <;> cases hc.symm.trans h

end Loop

/-- The second scan comes from the first one by taking in pages: as many as said, for which these
requests have been sent. -/
structure Paged (s s' : Scan) (count : Nat) (asked : List Request) : Prop where
  assignment : s'.assignment = s.assignment
  files : s'.cache.files = s.cache.files
  listener : s'.slots.listener = s.slots.listener
  pages : s'.pages = s.pages + count
  requests : ∃ sent, s'.log.pageRequests = s.log.pageRequests ++ sent ∧ Repeating asked sent
    ∧ (Impatient s.replies → sent = asked ∧ Impatient s'.replies)

theorem Paged.trans {s s' s'' : Scan} {m n : Nat} {asked asked' : List Request}
    (h : Paged s s' m asked) (h' : Paged s' s'' n asked') :
    Paged s s'' (m + n) (asked ++ asked') where
  assignment := h'.assignment.trans h.assignment
  files := h'.files.trans h.files
  listener := h'.listener.trans h.listener
  pages := by rw [h'.pages, h.pages, Nat.add_assoc]
  requests := by
    obtain ⟨sent, hsent, hrep, honce⟩ := h.requests
    obtain ⟨sent', hsent', hrep', honce'⟩ := h'.requests
    refine ⟨sent ++ sent', ?_, hrep.append hrep', ?_⟩
    · rw [hsent', hsent, List.append_assoc]
    · intro hi
      obtain ⟨rfl, hi'⟩ := honce hi
      obtain ⟨rfl, hi''⟩ := honce' hi'
      exact ⟨rfl, hi''⟩

theorem Steady.paged {s s' : Scan} (h : Steady s s') : Paged s s' 0 [] :=
  ⟨h.assignment, h.files, h.listener, h.pages,
    [], by rw [h.requests, List.append_nil], rfl, fun hi => ⟨rfl, h.replies ▸ hi⟩⟩

/-- A page that is delivered is fetched, counted, and has been asked for. -/
theorem paged_fetch {s : Scan} {cursor : Option Text} {p : Page} {ps : List Page}
    (hdelivers : Delivers s.assignment cursor s.replies (p :: ps)) :
    ∃ s₁, s.fetch cursor = (s₁, .ok p)
      ∧ Paged s (s₁.countPage p) 1 [s.assignment.request cursor]
      ∧ Delivers s.assignment p.cursor (s₁.countPage p).replies ps := by
  obtain ⟨hresult, hrest⟩ := hdelivers
  refine ⟨(s.fetch cursor).1, ?_, ?_, hrest⟩
  · rw [← hresult]
    rfl
  · obtain ⟨tries, hpos, hlog, honce⟩ := pageRequests_fetchFrom s.assignment.client
      (s.assignment.query cursor) 0 s.assignment.client.retries s.replies
    refine ⟨rfl, rfl, rfl, rfl, List.replicate tries (s.assignment.request cursor), ?_, ?_, ?_⟩
    · show Log.pageRequests ((s.log ++ (fetchPage s.assignment.client (s.assignment.query cursor)
        s.replies).log) ++ [pageDetail (s.pages + 1) p]) = _
      rw [Log.pageRequests_append, Log.pageRequests_append, fetchPage, hlog, pageDetail]
      exact List.append_nil _
    · exact ⟨tries, [], hpos, (List.append_nil _).symm, rfl⟩
    · intro hi
      rw [honce hi]
      exact ⟨rfl, hi.fetchPage _ _⟩

theorem Counted.countPage {s s₁ : Scan} {seen : List Record} {cursor : Option Text} {p : Page}
    (h : s.Counted seen) (hfetch : s.fetch cursor = (s₁, .ok p)) :
    (s₁.countPage p).Counted seen := by
  have hs₁ : s₁ = (s.fetch cursor).1 := by rw [hfetch]
  subst hs₁
  exact { h with }

/-- A first page without images ends the scan with nothing looked at. -/
theorem Counted.pagesFrom_noImages {s : Scan} {n : Nat} {cursor : Option Text} {p : Page}
    {ps : List Page} (h : s.Counted (s.assignment.filter.lookedAt n (itemsOf [])))
    (hlimit : ¬ s.isLimitReached = true) (hpages : s.pages = 0)
    (hdelivers : Delivers s.assignment cursor s.replies (p :: ps)) (hempty : p.items = []) :
    ∃ s', s.pagesFrom cursor = (s', .ok ())
      ∧ s'.Counted (s.assignment.filter.lookedAt n (itemsOf [p]))
      ∧ Paged s s' 1 [s.assignment.request cursor] := by
  obtain ⟨s₁, hfetch, hpaged, _⟩ := paged_fetch hdelivers
  have hcount : (s₁.countPage p).pages = 1 := by rw [hpaged.pages, hpages]
  have hc := h.countPage hfetch
  refine ⟨_, pagesFrom_empty hlimit hfetch hcount hempty, ?_, ?_⟩
  · rw [itemsOf_singleton, hempty]
    exact { hc with }
  · exact hpaged.trans (steady_noteEmpty _).paged

/-- Any other page is asked for and taken in. Whether the loop goes on from there is up to the
page's cursor. -/
theorem Counted.pagesFrom_step {s : Scan} {n : Nat} {prior : List Page} {cursor : Option Text}
    {p : Page} {ps : List Page} (h : s.Counted (s.assignment.filter.lookedAt n (itemsOf prior)))
    (hn : s.assignment.limit = some (n : Int)) (hlimit : ¬ s.isLimitReached = true)
    (hpages : s.pages = prior.length)
    (hdelivers : Delivers s.assignment cursor s.replies (p :: ps))
    (hkeys : ∀ r ∈ p.items, r.key?.isSome) (hempty : ¬ (prior = [] ∧ p.items = [])) :
    ∃ s', Paged s s' 1 [s.assignment.request cursor]
      ∧ s'.Counted (s.assignment.filter.lookedAt n (itemsOf (prior ++ [p])))
      ∧ Delivers s'.assignment p.cursor s'.replies ps
      ∧ (p.IsLast → s.pagesFrom cursor = (s', .ok ()))
      ∧ (¬ p.IsLast → s.pagesFrom cursor = s'.pagesFrom p.cursor) := by
  obtain ⟨s₁, hfetch, hpaged, hrest⟩ := paged_fetch hdelivers
  have hc := h.countPage hfetch
  have hn₁ : (s₁.countPage p).assignment.limit = some (n : Int) := by rw [hpaged.assignment, hn]
  rw [← hpaged.assignment] at hc
  obtain ⟨s', htake, hsteady, hs'⟩ := hc.takePage hn₁ hkeys
  rw [hpaged.assignment, ← itemsOf_singleton, ← itemsOf_append] at hs'
  rw [← hpaged.assignment, ← hsteady.assignment, ← hsteady.replies] at hrest
  have hfirst : ¬ ((s₁.countPage p).pages = 1 ∧ p.items = []) := by
    rintro ⟨hone, hitems⟩
    rw [hpaged.pages, hpages] at hone
    exact hempty ⟨List.eq_nil_of_length_eq_zero (by omega), hitems⟩
  obtain ⟨hlast, hnext⟩ := pagesFrom_page hlimit hfetch hfirst htake
  exact ⟨s', hpaged.trans hsteady.paged, hs', hrest, hlast, hnext⟩

/-- By induction on the pages that will be delivered: as long as the scan has not come to its end,
it takes one page more, and what it has counted stays what the items so far come to. -/
theorem Counted.pagesFrom {s : Scan} {n k : Nat} {prior : List Page} {cursor : Option Text}
    (pages : List Page) (h : s.Counted (s.assignment.filter.lookedAt n (itemsOf prior)))
    (hn : s.assignment.limit = some (n : Int)) (hpages : s.pages = prior.length)
    (hfew : (s.assignment.filter.matchedIds (itemsOf prior)).card < n)
    (hdelivers : Delivers s.assignment cursor s.replies pages)
    (hkeys : ∀ p ∈ pages, ∀ r ∈ p.items, r.key?.isSome)
    (hk : FirstEnd s.assignment.filter n prior pages k) :
    ∃ s', s.pagesFrom cursor = (s', .ok ())
      ∧ s'.Counted (s.assignment.filter.lookedAt n (itemsOf (prior ++ pages.take k)))
      ∧ Paged s s' k (((cursor :: pages.map Page.cursor).take k).map s.assignment.request) := by
  induction pages generalizing s prior k cursor with
  | nil => exact absurd rfl hk.ne_nil
  | cons p ps ih =>
    have hlimit : ¬ s.isLimitReached = true := by
      intro hl
      have := (h.isLimitReached_iff hn).mp hl
      rw [Filter.lookedAt_of_lt _ hfew] at this
      omega
    by_cases hempty : prior = [] ∧ p.items = []
    · obtain ⟨rfl, hitems⟩ := hempty
      obtain rfl := hk.eq_one (.noImages p rfl hitems)
      exact h.pagesFrom_noImages hlimit hpages hdelivers hitems
    · obtain ⟨s₁, hpaged, hs₁, hrest, hlast, hnext⟩ := h.pagesFrom_step hn hlimit hpages hdelivers
        (hkeys p (List.mem_cons_self ..)) hempty
      have hassign : s₁.assignment = s.assignment := hpaged.assignment
      by_cases hend : Ends s.assignment.filter n (prior ++ [p])
      · -- The page ends the scan, by what it supplies or by being the last one.
        obtain rfl := hk.eq_one hend
        refine ⟨s₁, ?_, hs₁, hpaged⟩
        by_cases hl : p.IsLast
        · exact hlast hl
        · have henough := hend.enough_of_not_last hempty hl
          rw [← hassign] at hs₁ henough hn
          rw [hnext hl]
          exact pagesFrom_full ((hs₁.isLimitReached_iff hn).mpr
            (Filter.le_matchedIds_lookedAt _ henough))
      · -- The scan goes on, as it would from the start with this page among those before.
        obtain ⟨j, rfl, hj⟩ := hk.tail hend
        have hl : ¬ p.IsLast := fun hl => hend (.last p (List.getLast?_concat ..) hl)
        have hfew₁ : (s.assignment.filter.matchedIds (itemsOf (prior ++ [p]))).card < n :=
          Nat.lt_of_not_le fun hle => hend (.enough hle)
        have hpages₁ : s₁.pages = (prior ++ [p]).length := by
          rw [hpaged.pages, hpages, List.length_append, List.length_singleton]
        rw [← hassign] at hs₁ hj hn hfew₁
        obtain ⟨s', hrun, hs', hpaged'⟩ := ih hs₁ hn hpages₁ hfew₁ hrest
          (fun q hq => hkeys q (List.mem_cons_of_mem _ hq)) hj
        rw [hassign] at hs' hpaged'
        refine ⟨s', (hnext hl).trans hrun, ?_, ?_⟩
        · rw [List.append_assoc] at hs'
          exact hs'
        · have := hpaged.trans hpaged'
          rwa [Nat.add_comm] at this

end Scan

end GalleryScan
