import GalleryScan.Proofs.Scan.Course
import GalleryScan.Proofs.Scan.Heeding

/-!
# Scans with two keys

Two scans are run side by side. They are twins as long as their states differ in nothing but the
key and the requests for pages that carry it. What does not heed the key keeps them twins, and so
does fetching a page, for the replies are the same:

> `s.Twin s' → Parallel s.run s'.run`

So the loop has the same course for both, and whatever the scans come to, they come to the same.
-/

set_option autoImplicit false

namespace GalleryScan

theorem Log.AsksForImages.discreet {log : Log} (h : log.AsksForImages) : log.Discreet := by
  intro r hr _
  obtain ⟨t, rfl⟩ := h r hr
  rfl

namespace Scan

/-! ## Twins -/

/-- The second scan differs from the first in the value of the key, and in the log where requests
for pages carry it. The first one has sent no key with a request for an image, nor will the second,
for their listeners send nothing. -/
structure Twin (s s' : Scan) : Prop where
  same : ∃ key log, s' = s.retold key s.replies log
    ∧ key.isTruthy = s.assignment.client.apiKey.isTruthy ∧ log.masked = s.log.masked
  silent : s.slots.HearsSilently
  discreet : s.log.Discreet

/-- Outcomes of twins: they come to the same. -/
structure Parallel {α : Type} (x x' : Scan × α) : Prop where
  state : x.1.Twin x'.1
  result : x'.2 = x.2

theorem Parallel.cases {α : Type} {x x' : Scan × α} (h : Parallel x x') :
    ∃ t t' r, x = (t, r) ∧ x' = (t', r) ∧ t.Twin t' :=
  ⟨x.1, x'.1, x.2, rfl, Prod.ext rfl h.result, h.state⟩

section Steps

variable {α : Type} {f : Scan → Scan × α} {s s' t : Scan} {cursor : Option Text} {p : Page}

/-- What heeds neither key nor log does the same to twins. -/
theorem Twin.heedless (h : s.Twin s') (hf : Heedless f s) : Parallel (f s) (f s') := by
  obtain ⟨key, log, rfl, hpresent, hlog⟩ := h.same
  obtain ⟨said, hasks, hsaid⟩ := hf.adds
  have hspoken : (f s).1.log = s.log ++ said :=
    congrArg (·.1.log) (hsaid s.assignment.client.apiKey s.replies s.log)
  have hother := hsaid key s.replies log
  refine ⟨⟨⟨key, log ++ said, ?_, ?_, ?_⟩, hf.silent h.silent, ?_⟩, by rw [hother]⟩
  · rw [hother, hf.replies]
  · rw [hpresent, hf.key]
  · rw [hspoken, Log.masked_append, Log.masked_append, hlog]
  · rw [hspoken]
    exact h.discreet.append (hasks h.silent).discreet

/-- A page is fetched with either key. -/
theorem Twin.fetch (h : s.Twin s') (cursor : Option Text) :
    Parallel (s.fetch cursor) (s'.fetch cursor) := by
  obtain ⟨key, log, rfl, hpresent, hlog⟩ := h.same
  obtain ⟨asked, hfetched, hasked⟩ := fetchPage_withOther (s.query cursor) hpresent s.replies
  have hother : (s.retold key s.replies log).fetch cursor
      = ((s.fetch cursor).1.retold key (s.fetch cursor).1.replies (log ++ asked),
        (s.fetch cursor).2) := by
    unfold Scan.fetch
    rw [show fetchPage (s.retold key s.replies log).assignment.client
        ((s.retold key s.replies log).query cursor) (s.retold key s.replies log).replies
        = { fetchPage s.assignment.client (s.query cursor) s.replies with log := asked }
      from hfetched]
    rfl
  rw [hother]
  refine ⟨⟨⟨key, log ++ asked, rfl, hpresent, ?_⟩, h.silent, ?_⟩, rfl⟩
  · rw [Log.masked_append, hlog, hasked]
    exact (Log.masked_append _ _).symm
  · exact h.discreet.append (discreet_fetchPage _ _ _)

theorem Twin.isLimitReached (h : s.Twin s') : s'.isLimitReached = s.isLimitReached := by
  obtain ⟨key, log, rfl, _⟩ := h.same
  rfl

theorem Twin.arrived (h : s.Twin s') (cursor : Option Text) (p : Page) :
    (s.arrived cursor p).Twin (s'.arrived cursor p) :=
  ((h.fetch cursor).state.heedless (heedless_countPage () _ p)).state

theorem Twin.pages (h : s.Twin s') : s'.pages = s.pages := by
  obtain ⟨key, log, rfl, _⟩ := h.same
  rfl

/-! ## The loop over pages -/

theorem TakesIn.twin (h : TakesIn s cursor p t) (hs : s.Twin s') :
    ∃ t', TakesIn s' cursor p t' ∧ t.Twin t' := by
  have harrived := hs.arrived cursor p
  have htaken := harrived.heedless (heedless_takePage _ p)
  rw [h.taken] at htaken
  refine ⟨((s'.arrived cursor p).takePage p).1, ⟨?_, ?_, ?_, Prod.ext rfl htaken.result⟩,
    htaken.state⟩
  · rw [hs.isLimitReached]
    exact h.goes
  · rw [(hs.fetch cursor).result]
    exact h.fetched
  · rw [harrived.pages]
    exact h.images

/-- By induction on the pages: the loop fetches the same ones with either key. -/
theorem Course.twin {pages : List Page} {r : Except FetchStop Unit} (h : Course s cursor pages t r)
    (hs : s.Twin s') : ∃ t', Course s' cursor pages t' r ∧ t.Twin t' := by
  induction h generalizing s' with
  | full limit => exact ⟨s', .full (hs.isLimitReached.trans limit), hs⟩
  | @failed s cursor e goes fetched =>
    have hfetch := hs.fetch cursor
    exact ⟨_, .failed e (by rwa [hs.isLimitReached]) (hfetch.result.trans fetched), hfetch.state⟩
  | @noImages s cursor p goes fetched first empty =>
    have harrived := hs.arrived cursor p
    exact ⟨_, .noImages p (by rwa [hs.isLimitReached]) ((hs.fetch cursor).result.trans fetched)
      (harrived.pages.trans first) empty, (harrived.heedless (heedless_noteEmpty () _)).state⟩
  | @noKey s s₃ cursor p fault goes fetched taken =>
    have htaken := (hs.arrived cursor p).heedless (heedless_takePage _ p)
    rw [taken] at htaken
    exact ⟨_, .noKey p fault (by rwa [hs.isLimitReached])
      ((hs.fetch cursor).result.trans fetched) (Prod.ext rfl htaken.result), htaken.state⟩
  | last p first isLast =>
    obtain ⟨t', hfirst, ht⟩ := first.twin hs
    exact ⟨t', .last p hfirst isLast, ht⟩
  | more first more rest ih =>
    obtain ⟨s₁', hfirst, hs₁⟩ := first.twin hs
    obtain ⟨t', hrest, ht⟩ := ih hs₁
    exact ⟨t', .more hfirst more hrest, ht⟩

theorem Twin.pagesFrom (h : s.Twin s') (cursor : Option Text) :
    Parallel (s.pagesFrom cursor) (s'.pagesFrom cursor) := by
  obtain ⟨pages, hcourse⟩ := exists_course s cursor
  obtain ⟨t', hcourse', ht⟩ := hcourse.twin h
  rw [hcourse'.pagesFrom]
  exact ⟨ht, rfl⟩

/-! ## The whole scan -/

theorem Twin.lookThrough (h : s.Twin s') : Parallel s.lookThrough s'.lookThrough := by
  obtain ⟨key, log, hsame, _⟩ := h.same
  have hoffline : s'.assignment.offline = s.assignment.offline := by rw [hsame]; rfl
  have hrecords : s'.cache.records = s.cache.records := by rw [hsame]; rfl
  unfold Scan.lookThrough
  rw [hoffline, hrecords]
  split
  · obtain ⟨t, t', r, ht, ht', htwin⟩ := (h.heedless (heedless_lookAll s s.cache.records)).cases
    rw [ht, ht']
    cases r <;> exact ⟨htwin, rfl⟩
  · exact h.pagesFrom none

theorem Twin.inPhase (h : s.Twin s') (phase : Phase) :
    Twin { s with phase } { s' with phase } :=
  (h.heedless (heedless_of_quiet () (u := fun s => { s with phase }) (fun _ _ _ => rfl) rfl)).state

/-- Before and after the pages neither key is heeded. -/
theorem Twin.run (h : s.Twin s') : Parallel s.run s'.run := by
  obtain ⟨t, t', r, hprepare, hprepare', ht⟩ := (h.heedless (heedless_prepare s)).cases
  unfold Scan.run
  rw [hprepare, hprepare']
  cases r with
  | error e => exact ⟨ht, rfl⟩
  | ok _ =>
    obtain ⟨u, u', r, hlook, hlook', hu⟩ := (ht.inPhase .scanning).lookThrough.cases
    dsimp only
    rw [hlook, hlook']
    rcases r with (e | stop) | _
    · have hsave := (hu.heedless (heedless_save () u)).state
      obtain ⟨v, v', r, hdrain, hdrain', hv⟩ := (hsave.heedless (heedless_drain _)).cases
      dsimp only
      rw [hdrain, hdrain']
      cases r with
      | error stop => exact ⟨hv, rfl⟩
      | ok _ => exact ⟨hv.inPhase .aborted, rfl⟩
    · exact ⟨hu, rfl⟩
    · obtain ⟨v, v', r, hdrain, hdrain', hv⟩ := (hu.heedless (heedless_drain u)).cases
      dsimp only
      rw [hdrain, hdrain']
      cases r with
      | error stop => exact ⟨hv, rfl⟩
      | ok _ => exact ⟨(hv.heedless (heedless_save () v)).state.inPhase .done, rfl⟩

end Steps

end Scan

end GalleryScan
