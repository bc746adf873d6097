import GalleryScan.Proofs.Download.Quiet
import GalleryScan.Proofs.Scan.Matches
import GalleryScan.Scan.Run

/-!
# Looking at items

Looking at items one after the other computes what `Proofs/Scan/Matches` says is to be found. The
invariant is `Counted`: what a scan has counted and submitted is what the items it has looked at
come to. One item preserves it, and so a whole page does, whose looking ends with the match that is
the last one asked for:

> `s.Counted (f.lookedAt n before) → (s.lookAll items).1.Counted (f.lookedAt n (before ++ items))`
-/

set_option autoImplicit false

namespace GalleryScan

/-- The job that downloads a match. -/
def Record.job (r : Record) : Job := ⟨r, none, []⟩

namespace Scan

/-! ## What looking leaves alone -/

/-- The second scan differs from the first in what it has found and said only: it has the same
assignment, the same names of files, as many pages and requests for pages, and the same replies. -/
structure Steady (s s' : Scan) : Prop where
  assignment : s'.assignment = s.assignment
  files : s'.cache.files = s.cache.files
  pages : s'.pages = s.pages
  replies : s'.replies = s.replies
  listener : s'.slots.listener = s.slots.listener
  requests : s'.log.pageRequests = s.log.pageRequests

theorem Steady.refl (s : Scan) : Steady s s := ⟨rfl, rfl, rfl, rfl, rfl, rfl⟩

theorem Steady.trans {s s' s'' : Scan} (h : Steady s s') (h' : Steady s' s'') : Steady s s'' where
  assignment := h'.assignment.trans h.assignment
  files := h'.files.trans h.files
  pages := h'.pages.trans h.pages
  replies := h'.replies.trans h.replies
  listener := h'.listener.trans h.listener
  requests := h'.requests.trans h.requests

theorem steady_say (s : Scan) {log : Log} (h : log.pageRequests = []) : Steady s (s.say log) :=
  ⟨rfl, rfl, rfl, rfl, rfl, by rw [Scan.log, say, Log.pageRequests_append, h, List.append_nil]⟩

theorem steady_take (s : Scan) (k : Key) (r : Record) : Steady s (s.take k r) := by
  unfold take
  dsimp only
  split <;> exact ⟨rfl, rfl, rfl, rfl, rfl, rfl⟩

/-- The scan with one item more that it has looked at. -/
def glance (s : Scan) : Scan := { s with tally := { s.tally with scanned := s.tally.scanned + 1 } }

/-- What a look at an item comes to: it is counted, it is known from an earlier page, or it is a new
match. -/
theorem look_cases (s : Scan) (r : Record) : (∃ result, s.look r = (s.glance, result))
    ∨ (∃ t, s.look r = (s.glance.say [.detail t], .ok ()))
    ∨ ∃ k, s.look r = (s.glance.take k r, .ok ()) := by
  unfold look
  dsimp only
  split
  · exact .inl ⟨_, rfl⟩
  · split
    · exact .inl ⟨_, rfl⟩
    · split
      · exact .inr (.inl ⟨_, rfl⟩)
      · exact .inr (.inr ⟨_, rfl⟩)

/-- What every look keeps, looking at all items keeps. By induction on the items. -/
theorem lookAll_keeps {P : Scan → Prop} {items : List Record}
    (hlook : ∀ s, ∀ r ∈ items, P s → P (s.look r).1) {s : Scan} (hs : P s) :
    P (s.lookAll items).1 := by
  induction items generalizing s with
  | nil => exact hs
  | cons r rs ih =>
    have hr := hlook s r (List.mem_cons_self ..) hs
    have hrest : ∀ t, P t → P (t.lookAll rs).1 := fun _ =>
      ih fun t u hu => hlook t u (List.mem_cons_of_mem r hu)
    unfold lookAll
    split
    · exact hs
    · split
      · rename_i s' heq
        rw [heq] at hr
        exact hrest s' hr
      · rename_i s' fault heq
        rwa [heq] at hr

theorem steady_look (s : Scan) (r : Record) : Steady s (s.look r).1 := by
  have hscan : Steady s s.glance := ⟨rfl, rfl, rfl, rfl, rfl, rfl⟩
  rcases look_cases s r with ⟨result, hr⟩ | ⟨t, hr⟩ | ⟨k, hr⟩
  · rwa [hr]
  · rw [hr]
    exact hscan.trans (steady_say _ rfl)
  · rw [hr]
    exact hscan.trans (steady_take _ _ _)

theorem steady_lookAll (s : Scan) (items : List Record) : Steady s (s.lookAll items).1 :=
  lookAll_keeps (fun t r _ ht => ht.trans (steady_look t r)) (.refl s)

/-! ## What has been counted -/

/-- What a scan has counted and submitted, where it has looked at these items. -/
structure Counted (s : Scan) (seen : List Record) : Prop where
  scanned : s.tally.scanned = seen.length
  found : s.tally.found = (s.assignment.filter.matchedIds seen).card
  matched : s.matched.map some = (s.assignment.filter.firstMatches seen).map Record.key?
  waiting : s.slots.waiting
    = ((s.assignment.filter.firstMatches seen).filter fun r => !s.cache.hasFile r.id).map Record.job
  submitted : s.slots.submitted = s.slots.waiting.length
  downloaded : s.tally.downloaded = s.slots.waiting.length
  skipped : s.tally.downloaded + s.tally.skipped = s.tally.found

/-- The keys of the matches decide whether a match is new. -/
theorem Counted.contains_iff {s : Scan} {seen : List Record} (h : s.Counted seen) {r : Record}
    {k : Key} (hk : Key.of? r.id = .ok k) :
    s.matched.contains k = true ↔ r.key? ∈ s.assignment.filter.matchedIds seen := by
  rw [← Filter.mem_map_firstMatches, ← h.matched, Record.key?_eq_some hk, List.contains_iff_mem]
  exact ⟨fun hm => List.mem_map.mpr ⟨k, hm, rfl⟩, fun hm => by simpa using hm⟩

/-- An item that is no new match is counted as scanned and nothing else. -/
theorem Counted.glance {s : Scan} {seen : List Record} {r : Record} (h : s.Counted seen)
    (hold : ¬ s.assignment.filter.IsNew seen r) : s.glance.Counted (seen ++ [r]) where
  scanned := by
    rw [List.length_append, ← h.scanned]
    rfl
  found := by
    show s.tally.found = (s.assignment.filter.matchedIds (seen ++ [r])).card
    rw [Filter.matchedIds_concat_old _ hold, h.found]
  matched := by
    show s.matched.map some = (s.assignment.filter.firstMatches (seen ++ [r])).map Record.key?
    rw [Filter.firstMatches_concat_old _ hold, h.matched]
  waiting := by
    show s.slots.waiting = ((s.assignment.filter.firstMatches (seen ++ [r])).filter _).map _
    rw [Filter.firstMatches_concat_old _ hold, h.waiting]
    rfl
  submitted := h.submitted
  downloaded := h.downloaded
  skipped := h.skipped

/-- A new match is counted, and submitted unless a file is named after it. -/
theorem Counted.take {s : Scan} {seen : List Record} {r : Record} {k : Key} (h : s.Counted seen)
    (hk : r.key? = some k) (hnew : s.assignment.filter.IsNew seen r) :
    (s.glance.take k r).Counted (seen ++ [r]) := by
  have hfirst := Filter.firstMatches_concat_new _ hnew
  have hcard := Filter.card_matchedIds_concat _ hnew
  have hmatched : (s.matched ++ [k]).map some
      = (s.assignment.filter.firstMatches (seen ++ [r])).map Record.key? := by
    rw [hfirst, List.map_append, List.map_append, h.matched, List.map_singleton,
      List.map_singleton, hk]
  have hscanned : s.tally.scanned + 1 = (seen ++ [r]).length := by
    rw [List.length_append, ← h.scanned]
    rfl
  have hfound : s.tally.found + 1 = (s.assignment.filter.matchedIds (seen ++ [r])).card :=
    (congrArg (· + 1) h.found).trans hcard.symm
  unfold Scan.take
  dsimp only
  -- A match with a file is skipped, one without a file waits for its download.
  cases hfile : s.glance.cache.hasFile r.id with
  | true =>
    rw [if_pos rfl]
    refine ⟨hscanned, hfound, hmatched, ?_, h.submitted, h.downloaded, ?_⟩
    · show s.slots.waiting = ((s.assignment.filter.firstMatches (seen ++ [r])).filter _).map _
      rw [hfirst, List.filter_append, List.filter_cons_of_neg (by simpa using hfile),
        List.filter_nil, List.append_nil, h.waiting]
      rfl
    · show s.tally.downloaded + (s.tally.skipped + 1) = s.tally.found + 1
      rw [← h.skipped, Nat.add_assoc]
  | false =>
    rw [if_neg (by simp)]
    refine ⟨hscanned, hfound, hmatched, ?_, ?_, ?_, ?_⟩
    · show s.slots.waiting ++ [r.job]
        = ((s.assignment.filter.firstMatches (seen ++ [r])).filter _).map _
      rw [hfirst, List.filter_append, List.filter_cons_of_pos (by simpa using hfile),
        List.filter_nil, List.map_append, h.waiting]
      rfl
    · show s.slots.submitted + 1 = (s.slots.waiting ++ [r.job]).length
      rw [List.length_append, h.submitted]
      rfl
    · show s.tally.downloaded + 1 = (s.slots.waiting ++ [r.job]).length
      rw [List.length_append, h.downloaded]
      rfl
    · show s.tally.downloaded + 1 + s.tally.skipped = s.tally.found + 1
      rw [← h.skipped]
      omega

/-- One item more. -/
theorem Counted.look {s : Scan} {seen : List Record} {r : Record} {k : Key} (h : s.Counted seen)
    (hk : Key.of? r.id = .ok k) :
    ∃ s', s.look r = (s', .ok ()) ∧ s'.Counted (seen ++ [r]) := by
  unfold Scan.look
  dsimp only
  by_cases hp : s.assignment.filter.accepts r.prompt = true
  · rw [if_neg (by simpa using hp), hk]
    dsimp only
    by_cases hm : s.matched.contains k = true
    · rw [if_pos hm]
      have hold : ¬ s.assignment.filter.IsNew seen r := by
        rintro ⟨_, hnew⟩
        exact hnew ((h.contains_iff hk).mp hm)
      have hglanced := h.glance hold
      exact ⟨_, rfl, { hglanced with }⟩
    · rw [if_neg hm]
      have hnew : s.assignment.filter.IsNew seen r :=
        ⟨hp, fun hmem => hm ((h.contains_iff hk).mpr hmem)⟩
      exact ⟨_, rfl, h.take (Record.key?_eq_some hk) hnew⟩
  · -- An item that does not pass is no match at all.
    rw [if_pos (by simpa using hp)]
    exact ⟨_, rfl, h.glance fun hnew => hp hnew.1⟩

/-! ## A page of items -/

/-- The limit is reached when there are as many matching ids as asked for. -/
theorem Counted.isLimitReached_iff {s : Scan} {seen : List Record} {n : Nat} (h : s.Counted seen)
    (hn : s.assignment.limit = some (n : Int)) :
    s.isLimitReached = true ↔ n ≤ (s.assignment.filter.matchedIds seen).card := by
  rw [isLimitReached, hn, Option.any_some, h.found, decide_eq_true_eq, Int.ofNat_le]

/-- By induction on the items: up to the last match asked for each one is looked at, and from there
on none is. -/
theorem Counted.lookAll {s : Scan} {n : Nat} {before : List Record} (items : List Record)
    (h : s.Counted (s.assignment.filter.lookedAt n before))
    (hn : s.assignment.limit = some (n : Int))
    (hkeys : ∀ r ∈ items, r.key?.isSome) :
    ∃ s', s.lookAll items = (s', .ok ())
      ∧ s'.Counted (s.assignment.filter.lookedAt n (before ++ items)) := by
  induction items generalizing s before with
  | nil => exact ⟨s, rfl, by rwa [List.append_nil]⟩
  | cons r rs ih =>
    unfold Scan.lookAll
    by_cases hfull : n ≤ (s.assignment.filter.matchedIds before).card
    · have hlimit := (h.isLimitReached_iff hn).mpr (Filter.le_matchedIds_lookedAt _ hfull)
      rw [if_pos hlimit, Filter.lookedAt_append _ hfull]
      exact ⟨s, rfl, h⟩
    · have hshort : (s.assignment.filter.matchedIds before).card < n := Nat.lt_of_not_le hfull
      rw [Filter.lookedAt_of_lt _ hshort] at h
      rw [if_neg fun hlimit => hfull ((h.isLimitReached_iff hn).mp hlimit)]
      obtain ⟨k, hk⟩ := Record.exists_key (hkeys r (List.mem_cons_self ..))
      obtain ⟨s', hlook, hs'⟩ := h.look hk
      have hsteady := steady_look s r
      rw [hlook] at hsteady ⊢
      dsimp only
      have hassign : s'.assignment = s.assignment := hsteady.assignment
      rw [← Filter.lookedAt_concat _ hshort, ← hassign] at hs'
      rw [← hassign] at hn ⊢
      obtain ⟨s'', hall, hs''⟩ := ih hs' hn fun t ht => hkeys t (List.mem_cons_of_mem _ ht)
      rw [List.append_assoc] at hs''
      exact ⟨s'', hall, hs''⟩

end Scan

end GalleryScan
