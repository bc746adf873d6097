import GalleryScan.Proofs.Cache.Resaving
import GalleryScan.Proofs.Download.Telling
import GalleryScan.Proofs.Scan.Heeding
import GalleryScan.Proofs.Scan.Replay

/-!
# Scans that could not fetch a page

A scan that cannot fetch a page saves and then downloads, where one whose listing ends there
downloads and then saves. Up to the page that is missing the two are in step, for nothing that a
scan does with a page depends on what it has said or on the replies to come:

> `s.Echoes s' → p'.items = p.items → (s.takePage p).1.Echoes (s'.takePage p').1`

What is saved was saved with the last page, so the order does not matter: both scans leave the same
disk, and have counted the same.
-/

set_option autoImplicit false

namespace GalleryScan

/-- The replies deliver these pages, each at the cursor of the one before it, and then an error. -/
def BreaksOff (a : Assignment) (e : FetchError) :
    Option Text → List ListingReply → List Page → Prop
  | cursor, replies, [] => (fetchPage a.client (a.query cursor) replies).result = .error (.error e)
  | cursor, replies, p :: ps =>
    (fetchPage a.client (a.query cursor) replies).result = .ok p
      ∧ BreaksOff a e p.cursor (fetchPage a.client (a.query cursor) replies).replies ps

/-- There are fewer matches among the items than asked for. -/
def Assignment.WantsMore (a : Assignment) (items : List Record) : Prop :=
  ∀ n, a.limit = some n → ((a.filter.matchedIds items).card : Int) < n

theorem Assignment.WantsMore.of_append {a : Assignment} {xs ys : List Record}
    (h : a.WantsMore (xs ++ ys)) : a.WantsMore xs := by
  intro n hn
  have hle := a.filter.matchedIds_mono (List.prefix_append xs ys)
  have := h n hn
  omega

namespace Scan

variable {s s' s₀ t : Scan} {cursor c : Option Text} {p p' : Page} {pages : List Page}
  {items : List Record}

/-! ## Scans in step -/

/-- The second state differs from the first one at most in the replies that are left and in what has
been said. -/
def Echoes (s s' : Scan) : Prop :=
  ∃ replies log, s' = { s with replies, slots := { s.slots with log } }

theorem Echoes.symm (h : s.Echoes s') : s'.Echoes s := by
  obtain ⟨replies, log, rfl⟩ := h
  exact ⟨s.replies, s.slots.log, rfl⟩

theorem Echoes.trans (h : s.Echoes s') (h' : s'.Echoes t) : s.Echoes t := by
  obtain ⟨replies, log, rfl⟩ := h
  obtain ⟨replies', log', rfl⟩ := h'
  exact ⟨replies', log', rfl⟩

theorem Echoes.isLimitReached (h : s.Echoes s') : s'.isLimitReached = s.isLimitReached := by
  obtain ⟨replies, log, rfl⟩ := h
  rfl

theorem Echoes.heedless {α : Type} {f : Scan → Scan × α} (h : s.Echoes s') (hf : Heedless f s) :
    (f s).1.Echoes (f s').1 ∧ (f s').2 = (f s).2 := by
  obtain ⟨replies, log, rfl⟩ := h
  obtain ⟨said, -, hsaid⟩ := hf.adds
  have hother := hsaid (f s).1.assignment.client.apiKey replies log
  rw [show s.retold (f s).1.assignment.client.apiKey replies log
      = { s with replies, slots := { s.slots with log } } by rw [hf.key]; rfl] at hother
  rw [hother]
  exact ⟨⟨replies, log ++ said, rfl⟩, rfl⟩

/-- Only the items of a page are taken in. -/
theorem Echoes.takePage (h : s.Echoes s') (hitems : p'.items = p.items) :
    (s.takePage p).1.Echoes (s'.takePage p').1 ∧ (s'.takePage p').2 = (s.takePage p).2 := by
  have hsame : s'.takePage p' = s'.takePage p := by rw [Scan.takePage, Scan.takePage, hitems]
  rw [hsame]
  exact h.heedless (heedless_takePage s p)

theorem Echoes.arrived (h : s.Echoes s') (cursor : Option Text) (p p' : Page) :
    (s.arrived cursor p).Echoes (s'.arrived cursor p') := by
  obtain ⟨replies, log, rfl⟩ := h
  exact ⟨_, _, rfl⟩

theorem Echoes.drain (h : s.Echoes s') :
    (s.drain).1.Echoes (s'.drain).1 ∧ (s'.drain).2 = (s.drain).2 :=
  h.heedless (heedless_drain s)

theorem Passes.assignment (h : Passes s cursor pages t c) : t.assignment = s.assignment := by
  induction h with
  | here s cursor => rfl
  | on first more rest ih => exact ih.trans first.assignment

/-- The last of the pages is taken in after the others. -/
theorem Passes.last (h : Passes s cursor (pages ++ [p]) t c) :
    ∃ s₁ c₁, Passes s cursor pages s₁ c₁ ∧ TakesIn s₁ c₁ p t := by
  induction pages generalizing s cursor with
  | nil =>
    cases h with
    | on first more rest =>
      cases rest with
      | here => exact ⟨s, cursor, .here s cursor, first⟩
  | cons q qs ih =>
    cases h with
    | on first more rest =>
      obtain ⟨s₁, c₁, hpasses, hlast⟩ := ih rest
      exact ⟨s₁, c₁, .on first more hpasses, hlast⟩

/-! ## Pages before the one that is missing -/

theorem Counted.isLimitReached_of_wantsMore (h : s.Counted items)
    (hwants : s.assignment.WantsMore items) : ¬ s.isLimitReached = true := by
  rw [isLimitReached, Option.any_eq_true]
  rintro ⟨n, hn, hle⟩
  have := hwants n hn
  rw [decide_eq_true_eq, h.found] at hle
  omega

/-- Below the limit all items are looked at. -/
theorem Counted.lookAll_all {before : List Record} (items : List Record) (h : s.Counted before)
    (hwants : s.assignment.WantsMore (before ++ items)) (hkeys : ∀ r ∈ items, r.key?.isSome) :
    ∃ s', s.lookAll items = (s', .ok ()) ∧ s'.Counted (before ++ items) := by
  induction items generalizing s before with
  | nil => exact ⟨s, rfl, by rwa [List.append_nil]⟩
  | cons r rs ih =>
    obtain ⟨k, hk⟩ := Record.exists_key (hkeys r (List.mem_cons_self ..))
    obtain ⟨s₁, hlook, hs₁⟩ := h.look hk
    have hassign : s₁.assignment = s.assignment := by
      have hsteady := steady_look s r
      rw [hlook] at hsteady
      exact hsteady.assignment
    rw [← List.singleton_append, ← List.append_assoc, ← hassign] at hwants
    obtain ⟨s', hall, hs'⟩ := ih hs₁ hwants fun t ht => hkeys t (List.mem_cons_of_mem _ ht)
    refine ⟨s', ?_, ?_⟩
    · rw [Scan.lookAll, if_neg (h.isLimitReached_of_wantsMore ?_), hlook]
      · exact hall
      · rw [← hassign]
        exact hwants.of_append.of_append
    · rwa [List.append_assoc] at hs'

theorem Counted.takePage_all {before : List Record} (h : s.Counted before)
    (hwants : s.assignment.WantsMore (before ++ p.items)) (hkeys : ∀ r ∈ p.items, r.key?.isSome) :
    ∃ s', s.takePage p = (s', .ok ()) ∧ s'.Counted (before ++ p.items) := by
  obtain ⟨es, hes⟩ := Entries.insertAll_ok hkeys s.cache.entries
  have hinsert : s.cache.insertAll p.items = ({ s.cache with entries := es }, .ok ()) := by
    rw [Cache.insertAll, hes]
  have hcached : Counted { s with cache := { s.cache with entries := es } } before := { h with }
  obtain ⟨s', hall, hs'⟩ := hcached.save.lookAll_all p.items hwants hkeys
  refine ⟨s', ?_, hs'⟩
  rw [Scan.takePage, hinsert]
  exact hall

/-- By induction on the pages: as long as more matches are asked for, each of them is taken in. -/
theorem Counted.passes {e : FetchError} {prior : List Page} (h : s.Counted (itemsOf prior))
    (hpages : s.pages = prior.length)
    (hbreaks : BreaksOff s.assignment e cursor s.replies pages)
    (hwants : s.assignment.WantsMore (itemsOf (prior ++ pages)))
    (hkeys : ∀ p ∈ pages, ∀ r ∈ p.items, r.key?.isSome) (hmore : ∀ p ∈ pages, ¬ p.IsLast)
    (himages : prior = [] → ∀ p, pages.head? = some p → p.items ≠ []) :
    ∃ t c, Passes s cursor pages t c ∧ t.Counted (itemsOf (prior ++ pages))
      ∧ (t.fetch c).2 = .error (.error e) := by
  induction pages generalizing s cursor prior with
  | nil =>
    rw [List.append_nil]
    exact ⟨s, cursor, .here s cursor, h, hbreaks⟩
  | cons p ps ih =>
    obtain ⟨hfetched, hrest⟩ := hbreaks
    rw [← List.singleton_append, ← List.append_assoc] at hwants ⊢
    have hp := hwants
    rw [itemsOf_append, itemsOf_append, itemsOf_singleton] at hp
    have harrived : (s.arrived cursor p).Counted (itemsOf prior) := { h with }
    obtain ⟨s₁, htaken, hs₁⟩ := harrived.takePage_all hp.of_append (hkeys p (List.mem_cons_self ..))
    have hfirst : TakesIn s cursor p s₁ := by
      refine ⟨h.isLimitReached_of_wantsMore hp.of_append.of_append, hfetched, ?_, htaken⟩
      rintro ⟨hone, hitems⟩
      have hnone : prior = [] := by
        apply List.eq_nil_of_length_eq_zero
        rw [← hpages]
        exact Nat.succ.inj hone
      exact himages hnone p rfl hitems
    have hassign : s₁.assignment = s.assignment := hfirst.assignment
    rw [← itemsOf_singleton, ← itemsOf_append] at hs₁
    have hpages₁ : s₁.pages = (prior ++ [p]).length := by
      rw [hfirst.steady.pages, List.length_append, ← hpages]
      rfl
    have hrest₁ : BreaksOff s₁.assignment e p.cursor s₁.replies ps := by
      rw [hassign, hfirst.steady.replies]
      exact hrest
    rw [← hassign] at hwants
    obtain ⟨t, c, hpasses, ht, hfailed⟩ := ih hs₁ hpages₁ hrest₁ hwants
      (fun q hq => hkeys q (List.mem_cons_of_mem _ hq))
      (fun q hq => hmore q (List.mem_cons_of_mem _ hq))
      (fun hnil => absurd hnil (List.append_ne_nil_of_right_ne_nil _ (List.cons_ne_nil _ _)))
    exact ⟨t, c, .on hfirst (hmore p (List.mem_cons_self ..)) hpasses, ht, hfailed⟩

/-- What is on the disk behind a page has been saved with it. -/
theorem TakesIn.saved (h : TakesIn s cursor p t) : ∃ d, t.disk = (t.cache.save d).2.1 := by
  obtain ⟨s₁, _, hlook⟩ := h.exists_save
  have hrests := rests_lookAll s₁.save p.items
  rw [hlook] at hrests
  refine ⟨s₁.disk, ?_⟩
  rw [hrests.disk, hrests.cache, save_eq]
  rfl

section Books

variable {folder quality : Text} {n : Nat}

end Books

/-! ## The same end -/

end Scan

/-! ## A third page that is not found -/

namespace MissingPage

open Scan
open TwoCats (item cat)

/-- A scan for three cats. -/
def assignment : Assignment := { TwoCats.assignment with limit := some 3 }

/-- Two pages, of which the second one says that there is another, and none is found. -/
def replies : List ListingReply :=
  [.ok ⟨200, [], [],
      "\x7b\"items\":[" ++ item "1" "p" ++ "],\"metadata\":\x7b\"nextCursor\":\"c\"\x7d\x7d"⟩,
    .ok ⟨200, [], [],
      "\x7b\"items\":[" ++ item "1" "p" ++ "," ++ item "2" "q"
        ++ "],\"metadata\":\x7b\"nextCursor\":\"d\"\x7d\x7d"⟩,
    .ok ⟨404, [], [], []⟩]

/-- The image of the second cat is refused. -/
def images : ImageServer := [("q", ⟨false, .ok ⟨500, [], [], none⟩⟩)]

def second (cursor : Option Text) : Page := ⟨[cat 1 "p", cat 2 "q"], cursor⟩

def scan : Scan := start assignment ⟨"u", [], []⟩ "SD" 1 replies images TwoCats.disk

theorem prepare_scan : scan.prepare = ({ scan with cache := ⟨"u", [], ["1"]⟩ }, .ok ()) :=
  OneOfTwo.prepare_start assignment replies images rfl rfl

end MissingPage

end GalleryScan
