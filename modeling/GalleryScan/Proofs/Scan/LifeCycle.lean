import GalleryScan.Proofs.Scan.Moving
import GalleryScan.Proofs.Settings.Checking
import GalleryScan.Scan.Start

/-!
# The life of a scan

A whole run is made of moves, each of which the program makes where it is its turn:

> `∃ seen, Moves s seen s.run.1`

So the counts agree at every point of it, however its downloads come between. What remains to be
shown is that a run comes to an end where its listing does: the downloads that have been submitted
are waited for, and none of them ends the program.
-/

set_option autoImplicit false

namespace GalleryScan

/-- The id is a key, and its text has a form in bytes. -/
def Record.IsPlain (r : Record) : Prop := r.key?.isSome = true ∧ r.id.plain.isEncodable = true

namespace Scan

variable {start s s' t s₀ : Scan} {a : Assignment} {p q : Text} {n : Nat} {seen : List Record}
  {cursor : Option Text} {page : Page} {pages : List Page} {r : Except FetchStop Unit}

/-- The moves have led to a scan that is looking. -/
structure Looking (start : Scan) (seen : List Record) (s : Scan) : Prop where
  moves : Moves start seen s
  scanning : s.phase = .scanning

theorem Moves.quiet (h : Moves start seen s) (hmove : Move start s [] t) : Moves start seen t := by
  have hmore := h.more hmove
  rwa [List.append_nil] at hmore

/-! ## Looking -/

theorem look_of_key {x : Record} (hx : x.key?.isSome = true) :
    s.look x = ((s.look x).1, .ok ()) := by
  obtain ⟨k, hk⟩ := Record.exists_key hx
  unfold look
  dsimp only
  rw [hk]
  repeat' split
  all_goals first
    | rfl
    | rename_i hfault
      cases hfault

/-- By induction on the items. -/
theorem Looking.lookAll {items : List Record} (h : Looking start seen s)
    (hitems : ∀ x ∈ items, x.IsPlain) :
    ∃ more, Looking start (seen ++ more) (s.lookAll items).1 ∧ (s.lookAll items).2 = .ok () := by
  induction items generalizing s seen with
  | nil => exact ⟨[], by rwa [List.append_nil], rfl⟩
  | cons x xs ih =>
    unfold Scan.lookAll
    by_cases hlimit : s.isLimitReached = true
    · rw [if_pos hlimit]
      exact ⟨[], by rwa [List.append_nil], rfl⟩
    · obtain ⟨hkey, hplain⟩ := hitems x (List.mem_cons_self ..)
      have hlook := look_of_key (s := s) hkey
      have hmoved : Looking start (seen ++ [x]) (s.look x).1 :=
        ⟨h.moves.more (.look s _ x h.scanning hlimit hplain hlook),
          (phase_look s x).trans h.scanning⟩
      obtain ⟨more, hmore, hresult⟩ := ih hmoved fun y hy => hitems y (List.mem_cons_of_mem x hy)
      rw [if_neg hlimit, hlook]
      rw [List.append_assoc] at hmore
      exact ⟨[x] ++ more, hmore, hresult⟩

theorem Looking.arrived (h : Looking start seen s) (cursor : Option Text) (page : Page) :
    Looking start seen (s.arrived cursor page) :=
  ⟨(h.moves.quiet (.fetch s cursor h.scanning)).quiet (.countPage _ page h.scanning), h.scanning⟩

theorem Looking.takePage (h : Looking start seen s) (hitems : ∀ x ∈ page.items, x.IsPlain) :
    ∃ more, Looking start (seen ++ more) (s.takePage page).1 ∧ (s.takePage page).2 = .ok () := by
  obtain ⟨es, hes⟩ := Entries.insertAll_ok (fun x hx => (hitems x hx).1) s.cache.entries
  have hinsert : s.cache.insertAll page.items = ({ s.cache with entries := es }, .ok ()) := by
    rw [Cache.insertAll, hes]
  have hcached := h.moves.quiet (.insert s page.items h.scanning)
  rw [hinsert] at hcached
  have hsaved : Looking start seen (save { s with cache := { s.cache with entries := es } }) :=
    ⟨hcached.quiet (.save _ h.scanning), h.scanning⟩
  rw [Scan.takePage, hinsert]
  exact hsaved.lookAll hitems

theorem TakesIn.looking (h : TakesIn s cursor page t) (hs : Looking start seen s)
    (hitems : ∀ x ∈ page.items, x.IsPlain) : ∃ more, Looking start (seen ++ more) t := by
  obtain ⟨more, hmore, -⟩ := (hs.arrived cursor page).takePage hitems
  rw [h.taken] at hmore
  exact ⟨more, hmore⟩

/-- By induction on the pages: the loop over them is made of moves, however it leaves off. -/
theorem Course.looking (h : Course s cursor pages s' r) (hs : Looking start seen s)
    (hitems : ∀ x ∈ itemsOf pages, x.IsPlain) : ∃ more, Looking start (seen ++ more) s' := by
  induction h generalizing seen with
  | full limit => exact ⟨[], by rwa [List.append_nil]⟩
  | @failed s cursor e goes fetched =>
    rw [show seen = seen ++ [] from (List.append_nil seen).symm] at hs
    exact ⟨[], hs.moves.quiet (.fetch s cursor hs.scanning), hs.scanning⟩
  | @noImages s cursor p goes fetched first empty =>
    have harrived := hs.arrived cursor p
    rw [← List.append_nil seen] at harrived
    exact ⟨[], harrived.moves.quiet (.noteEmpty _ harrived.scanning), harrived.scanning⟩
  | @noKey s s₃ cursor p fault goes fetched taken =>
    rw [itemsOf_singleton] at hitems
    obtain ⟨more, -, hresult⟩ := (hs.arrived cursor p).takePage hitems
    rw [taken] at hresult
    cases hresult
  | last p first isLast =>
    rw [itemsOf_singleton] at hitems
    exact first.looking hs hitems
  | @more s s₁ s' cursor p pages r first more rest ih =>
    rw [show itemsOf (p :: pages) = p.items ++ itemsOf pages from List.flatMap_cons] at hitems
    obtain ⟨front, hfront⟩ := first.looking hs fun x hx => hitems x (List.mem_append_left _ hx)
    obtain ⟨back, hback⟩ := ih hfront fun x hx => hitems x (List.mem_append_right _ hx)
    rw [List.append_assoc] at hback
    exact ⟨front ++ back, hback⟩

theorem Looking.lookThrough (h : Looking start seen s)
    (hitems : ∀ items, s.Offers items → ∀ x ∈ items, x.IsPlain) :
    ∃ more, Looking start (seen ++ more) s.lookThrough.1 := by
  cases hoffline : s.assignment.offline with
  | true =>
    have hcached := hitems s.cache.records (by rw [Offers, if_pos hoffline])
    obtain ⟨more, hmore, hresult⟩ := h.lookAll hcached
    rw [lookThrough_offline hoffline (Prod.ext rfl hresult)]
    exact ⟨more, hmore⟩
  | false =>
    obtain ⟨pages, hcourse⟩ := exists_course s none
    have hoffers : s.Offers (itemsOf pages) := by
      rw [Offers, hoffline]
      exact ⟨pages, hcourse.delivers, rfl⟩
    rw [lookThrough_online hoffline]
    exact hcourse.looking h (hitems _ hoffers)

/-! ## Waiting for the downloads -/

theorem Moves.works {b : Slots} (h : Moves start seen s) (hdraining : s.phase = .draining)
    (hworks : Relation.ReflTransGen Slots.Work s.slots b) :
    Moves start seen { s with slots := b } := by
  induction hworks with
  | refl => exact h
  | @tail b b' _ work ih =>
    exact ih.quiet (.download { s with slots := b } b' (.inr hdraining) work)

theorem drain_eq_ok (h : s.drain = (t, .ok ())) :
    t = { s with phase := .draining, slots := s.slots.drain } := by
  unfold Scan.drain at h
  split at h
  · cases h
  · dsimp only at h
    split at h
    · cases h
      rfl
    · cases h

/-- When the downloads have been waited for, none is left. -/
theorem Looking.drain (h : Looking start seen s) (hs : s.Balanced a p q n seen)
    (hnone : a.hindrance = none) (hn : 0 < n) :
    ∃ t, s.drain = (t, .ok ()) ∧ Moves start seen t ∧ t.phase = .draining
      ∧ t.slots.unfinished = 0 := by
  have hbooks := hs.inOrder.balanced
  obtain ⟨t, hdrain⟩ := drain_of_balanced hbooks (by rw [hs.assignment, hnone])
  have hwaits := h.moves.quiet (.drain s h.scanning)
  refine ⟨t, hdrain, ?_⟩
  rw [drain_eq_ok hdrain]
  exact ⟨hwaits.works rfl (Slots.works_drain hbooks.stop), rfl, hbooks.unfinished_drain hn⟩

/-! ## The whole run -/

/-- The scan is ready for its first item once it is prepared, and nothing keeps its downloads from
starting. -/
structure Opens (a : Assignment) (p q : Text) (n : Nat) (start : Scan) : Prop where
  init : start.phase = .init
  ready : ∀ s₀, start.prepare = (s₀, .ok ()) → Balanced a p q n [] { s₀ with phase := .scanning }
  free : a.hindrance = none
  room : 0 < n

theorem Looking.balanced (h : Looking start seen s) (hopens : start.Opens a p q n) :
    s.Balanced a p q n seen := by
  rcases h.moves.untouched_or_balanced hopens.init hopens.ready with huntouched | hbalanced
  · rcases huntouched.phase hopens.init with hphase | hphase <;>
      cases hphase.symm.trans h.scanning
  · exact hbalanced

theorem Opens.run_of_ok (hopens : start.Opens a p q n) (hprepare : start.prepare = (s₀, .ok ()))
    (hlook : lookThrough { s₀ with phase := .scanning } = (s, .ok ()))
    (hs : Looking start seen s) :
    Moves start seen start.run.1 ∧ start.run.2 = .ok () ∧ start.run.1.phase = .done := by
  obtain ⟨t, hdrain, ht, hdraining, hidle⟩ :=
    hs.drain (hs.balanced hopens) hopens.free hopens.room
  rw [Scan.run_of_ok hprepare hlook hdrain]
  exact ⟨ht.quiet (.done t hdraining hidle), rfl, rfl⟩

theorem Opens.run_of_error {e : FetchError} (hopens : start.Opens a p q n)
    (hprepare : start.prepare = (s₀, .ok ()))
    (hlook : lookThrough { s₀ with phase := .scanning } = (s, .error (.error e)))
    (hs : Looking start seen s) :
    Moves start seen start.run.1 ∧ start.run.2 = .error (.fetch e)
      ∧ start.run.1.phase = .aborted := by
  have hsaved : Looking start seen s.save := ⟨hs.moves.quiet (.save s hs.scanning), hs.scanning⟩
  obtain ⟨t, hdrain, ht, hdraining, hidle⟩ :=
    hsaved.drain (hsaved.balanced hopens) hopens.free hopens.room
  rw [Scan.run_of_error hprepare hlook hdrain]
  exact ⟨ht.quiet (.abort t hdraining hidle), rfl, rfl⟩

/-- The items that a scan can come to look at have ids that are plain. -/
def OffersPlain (start : Scan) : Prop :=
  ∀ s₀ items, start.prepare = (s₀, .ok ()) → s₀.Offers items → ∀ x ∈ items, x.IsPlain

theorem OffersPlain.looking (hplain : start.OffersPlain) (hprepare : start.prepare = (s₀, .ok ()))
    (hlook : lookThrough { s₀ with phase := .scanning } = (s, r)) :
    ∃ seen, Looking start seen s := by
  have hready : Looking start [] { s₀ with phase := .scanning } :=
    ⟨Moves.none.quiet (.ready s₀ hprepare), rfl⟩
  obtain ⟨seen, hseen⟩ := hready.lookThrough fun items => hplain s₀ items hprepare
  rw [hlook] at hseen
  exact ⟨seen, hseen⟩

/-- A run is made of moves, whichever way it takes. -/
theorem Opens.exists_moves (hopens : start.Opens a p q n) (hplain : start.OffersPlain) :
    ∃ seen, Moves start seen start.run.1 := by
  cases hprepare : start.prepare with
  | mk s₀ result =>
    cases result with
    | error e =>
      have hrun : start.run = (s₀, .error e) := by rw [run, hprepare]
      rw [hrun]
      exact ⟨[], Moves.none.quiet (.unready s₀ e hprepare)⟩
    | ok _ =>
      cases hlook : lookThrough { s₀ with phase := .scanning } with
      | mk s r =>
        obtain ⟨seen, hseen⟩ := hplain.looking hprepare hlook
        refine ⟨seen, ?_⟩
        rcases r with (e | stop) | _
        · exact (hopens.run_of_error hprepare hlook hseen).1
        · have hrun : start.run = (s, .error (.stop stop)) := by
            rw [run, hprepare]
            simp only [hlook]
          rw [hrun]
          exact hseen.moves
        · exact (hopens.run_of_ok hprepare hlook hseen).1

end Scan

/-! ## Runs of checked settings -/

namespace Scan

variable {c : Configuration} {replies : List ListingReply} {images : ImageServer} {disk : Disk}
  {s : Scan}

theorem exists_start (h : ofConfiguration? c replies images disk = .ok s) :
    ∃ a cache concurrency, s = start a cache c.quality concurrency replies images disk
      ∧ a.limit = some c.limit ∧ a.hindrance = none := by
  unfold ofConfiguration? ofSettings? at h
  simp only [bind, Except.bind] at h
  split at h
  · cases h
  split at h
  · cases h
  split at h
  · cases h
  cases h
  exact ⟨_, _, _, rfl, rfl, rfl⟩

theorem opens_start {a : Assignment} {limit : Int} (hlimit : a.limit = some limit)
    (hone : 1 ≤ limit) (hfree : a.hindrance = none) (himages : ∀ i ∈ images, i.2.IsOrdinary)
    (cache : Cache) (quality : Text) (concurrency : Int) (replies : List ListingReply)
    (disk : Disk) :
    Opens a cache.folder quality (Slots.capacityFor concurrency)
      (start a cache quality concurrency replies images disk) := by
  refine ⟨rfl, fun s₀ hprepare => balanced_ready ?_ himages hprepare, hfree, ?_⟩
  · intro m hm
    rw [hlimit] at hm
    cases hm
    exact Int.le_of_lt hone
  · rw [Slots.capacityFor]
    omega

/-- Whether the scan has been prepared or not. -/
theorem Moves.accounted {a : Assignment} {cache : Cache} {quality : Text} {concurrency : Int}
    {limit : Int} {seen : List Record} {t : Scan} (hlimit : a.limit = some limit) (hone : 1 ≤ limit)
    (hopens : Opens a cache.folder quality (Slots.capacityFor concurrency)
      (start a cache quality concurrency replies images disk))
    (h : Moves (start a cache quality concurrency replies images disk) seen t) :
    t.Accounted limit a.filter seen ∧ (t.phase = .done ∨ t.phase = .aborted → t.Settled) := by
  rcases h.untouched_or_balanced hopens.init hopens.ready with huntouched | hbalanced
  · obtain ⟨haccounted, hsettled⟩ := huntouched.accounted (Int.le_of_lt hone)
    exact ⟨haccounted, fun _ => hsettled⟩
  · exact ⟨hbalanced.accounted hlimit, hbalanced.settled⟩

/-- With checked settings, ids that are keys and a server whose failures are ordinary, a scan makes
its run in moves. Whatever moves it has made, as in the run or with its downloads coming between at
other times, its counts agree with each other and with the items that it has looked at, and its
phases come in their order. The run comes to its end if all pages could be had, and is given up if
one could not; and then no download is left and all failures have been counted. -/
theorem run_accounted {settings : Settings} (hsettings : Configuration.ofSettings? settings = .ok c)
    (hscan : ofConfiguration? c replies images disk = .ok s)
    (himages : ∀ i ∈ images, i.2.IsOrdinary) (hplain : s.OffersPlain) :
    (1 ≤ c.limit ∧ s.phase = .init ∧ ∃ seen, Moves s seen s.run.1)
      ∧ (∀ seen t, Moves s seen t → t.Accounted c.limit s.assignment.filter seen
        ∧ (∀ looked u, Move s t looked u → u.phase = t.phase ∨ t.phase.Leads u.phase)
        ∧ (t.phase = .done ∨ t.phase = .aborted → t.Settled))
      ∧ ∀ s₀ s₁ r, s.prepare = (s₀, .ok ()) → lookThrough { s₀ with phase := .scanning } = (s₁, r) →
        (∃ seen, Looking s seen s₁)
          ∧ (r = .ok () → s.run.2 = .ok () ∧ s.run.1.phase = .done ∧ s.run.1.Settled)
          ∧ ∀ e, r = .error (.error e) →
            s.run.2 = .error (.fetch e) ∧ s.run.1.phase = .aborted ∧ s.run.1.Settled := by
  have hone : 1 ≤ c.limit := (Configuration.ofSettings?_eq_ok_iff.mp hsettings).2.1.limit
  obtain ⟨a, cache, concurrency, rfl, hlimit, hfree⟩ := exists_start hscan
  have hopens := opens_start hlimit hone hfree himages cache c.quality concurrency replies disk
  refine ⟨⟨hone, rfl, hopens.exists_moves hplain⟩, fun seen t ht => ?_, ?_⟩
  · obtain ⟨haccounted, hsettled⟩ := ht.accounted hlimit hone hopens
    exact ⟨haccounted, fun _ _ hmove => hmove.phase hopens.init, hsettled⟩
  · intro s₀ s₁ r hprepare hlook
    obtain ⟨seen, hseen⟩ := hplain.looking hprepare hlook
    refine ⟨⟨seen, hseen⟩, ?_, ?_⟩
    · rintro rfl
      obtain ⟨hmoves, hresult, hdone⟩ := hopens.run_of_ok hprepare hlook hseen
      exact ⟨hresult, hdone, (hmoves.accounted hlimit hone hopens).2 (.inl hdone)⟩
    · rintro e rfl
      obtain ⟨hmoves, hresult, haborted⟩ := hopens.run_of_error hprepare hlook hseen
      exact ⟨hresult, haborted, (hmoves.accounted hlimit hone hopens).2 (.inr haborted)⟩

end Scan

/-! ## Cats of checked settings -/

namespace CheckedCats

open Scan

/-- Settings that ask for two cats. -/
def settings : Settings
  | .username => .text "u"
  | .tags => .text "cat"
  | .output => .text ""
  | .limit => .int 2
  | .concurrency => .text "1"
  | .quality => .text "sd"
  | _ => .null

def configuration : Configuration where
  username := "u"
  tags := .text "cat"
  excludeTags := .null
  nsfw := .null
  sort := .null
  limit := 2
  output := .text ""
  concurrency := 1
  quality := "SD"
  apiKey := .null
  offline := .null
  showProgress := .null

def assignment : Assignment where
  username := .text "u"
  sort := .null
  nsfw := .null
  limit := some 2
  offline := false
  filter := ⟨"cat", [], [], some (.term "cat")⟩
  client := Client.withKey .null
  hasBars := false
  hindrance := none

/-- The image of the second cat is refused. -/
def images : ImageServer := [("q", ⟨false, .ok ⟨500, [], [], none⟩⟩)]

def scan : Scan := start assignment OneOfTwo.fresh "SD" 1 OneOfTwo.replies images TwoCats.disk

/-- The scan before its first page. -/
def ready : Scan := { scan with cache := ⟨"u", [], ["1"]⟩ }

theorem settings_checked : Configuration.ofSettings? settings = .ok configuration := by
  have hname : Text.strip "u" = "u" := by cbv
  have hquality : Text.upper "sd" = "SD" := by cbv
  have hone : Whole.read "1" = .ok 1 := by cbv
  have hknown : Configuration.qualities.contains "SD" = true := by decide
  unfold Configuration.ofSettings?
  simp only [settings, Json.plain, Json.isTruthy, hname, hquality, hone, Json.whole?, hknown]
  rfl

theorem filter_made : Settings.filter? configuration.settings = .ok assignment.filter := by
  have hquery : Expr.compile? "cat" = .ok (some (.term "cat")) := by cbv
  have hcompile : Filter.compile? "cat" [] = .ok assignment.filter := by
    rw [Filter.compile?, hquery]
    rfl
  simp only [Settings.filter?,
    show textSetting "split" (configuration.settings .excludeTags) = .ok [] from rfl,
    show textSetting "strip" (configuration.settings .tags) = .ok "cat" from rfl, hcompile]

theorem scan_made :
    ofConfiguration? configuration OneOfTwo.replies images TwoCats.disk = .ok scan := by
  unfold ofConfiguration? ofSettings?
  rw [filter_made]
  rfl

theorem prepare_scan : scan.prepare = (ready, .ok ()) :=
  OneOfTwo.prepare_start assignment OneOfTwo.replies images rfl rfl

theorem isPlain_page : ∀ x ∈ OneOfTwo.page.items, x.IsPlain := by
  intro x hx
  rcases List.mem_pair.mp hx with rfl | rfl
  · exact ⟨rfl, by decide⟩
  · exact ⟨rfl, by decide⟩

theorem fetched_page :
    (fetchPage assignment.client (assignment.query none) OneOfTwo.replies).result
      = .ok OneOfTwo.page := OneOfTwo.takesIn_page.fetched

/-- The replies deliver one page at most. -/
theorem offersPlain_scan : scan.OffersPlain := by
  rintro s₀ items hprepare hoffers x hx
  rw [prepare_scan] at hprepare
  cases hprepare
  obtain ⟨pages, hdelivers, rfl⟩ := hoffers
  rcases pages with - | ⟨p, - | ⟨q, qs⟩⟩
  · cases hx
  · obtain rfl : OneOfTwo.page = p := Except.ok.inj (Eq.trans (Eq.symm fetched_page) hdelivers.1)
    rw [itemsOf_singleton] at hx
    exact isPlain_page x hx
  · -- The server has no second reply.
    cases hdelivers.2.1

/-- The scan after its first page. -/
theorem exists_taken : ∃ s, TakesIn { ready with phase := .scanning } none OneOfTwo.page s := by
  have hready : Looking scan [] { ready with phase := .scanning } :=
    ⟨Moves.none.quiet (.ready ready prepare_scan), rfl⟩
  obtain ⟨_, -, htake⟩ := (hready.arrived none OneOfTwo.page).takePage isPlain_page
  refine ⟨_, by decide, fetched_page, ?_, Prod.ext rfl htake⟩
  rintro ⟨-, hempty⟩
  cases hempty

/-- At a user with two cats, of which one has a file and the other cannot be had. -/
theorem run_accounted_cats :
    (Configuration.ofSettings? settings = .ok configuration
        ∧ ofConfiguration? configuration OneOfTwo.replies images TwoCats.disk = .ok scan)
      ∧ (∃ seen, Moves scan seen scan.run.1 ∧ scan.run.1.Accounted 2 assignment.filter seen)
      ∧ scan.run.2 = .ok () ∧ scan.run.1.phase = .done ∧ scan.run.1.Settled := by
  obtain ⟨s₁, htaken⟩ := exists_taken
  have hlook : lookThrough { ready with phase := .scanning } = (s₁, .ok ()) :=
    htaken.lookThrough_last rfl (.inl rfl)
  obtain ⟨⟨-, -, seen, hseen⟩, haccounted, hends⟩ :=
    run_accounted settings_checked scan_made (by decide) offersPlain_scan
  obtain ⟨-, hdone, -⟩ := hends ready s₁ (.ok ()) prepare_scan hlook
  exact ⟨⟨settings_checked, scan_made⟩, ⟨seen, hseen, (haccounted seen _ hseen).1⟩, hdone rfl⟩

end CheckedCats

end GalleryScan
