import GalleryScan.Proofs.Cache.Loading
import GalleryScan.Proofs.Listing.Misdirection
import GalleryScan.Proofs.Scan.Aborting

/-!
# Items whose ids are no keys

A page keeps every item that has an id and an address, whatever value the id is. Its items go into
the cache by their keys, and an id with parts has none. So of what a listing may hold just this
breaks a scan off while it takes in a page, wherever in the page the id stands and whether or not
its item would have matched:

> `r = .error (.stop (.breakdown (.key fault))) ↔ ∃ id, unkeyed? (itemsOf pages) = some id ∧ …`

Of a page that is broken off nothing is saved, looked at or submitted. All other pages are taken in
as a whole, and behind them nothing that their items are ends the run, if their files have names
with a form in bytes.
-/

set_option autoImplicit false

namespace GalleryScan

/-! ## The items of a page -/

/-- Has the item what an image needs: an id and an address? -/
def Json.isUsable (item : Json) : Bool := !(item.get "id").isNull && (item.get "url").isTruthy

/-- The page has the usable items of the listing, in their order, with their ids. -/
def Page.Keeps (p : Page) (listing : Json) : Prop :=
  ∃ items, listing.get "items" = .array items ∧
    p.items.map (fun r => (r.id, Json.object r.raw))
      = (items.filter Json.isUsable).map fun item => (item.get "id", item)

/-- A record is made of just the usable items. -/
theorem Record.ofJson?_cases (item : Json) :
    (item.isUsable = true ∧ ∃ r, Record.ofJson? item = .ok r ∧ r.id = item.get "id"
        ∧ Json.object r.raw = item)
      ∨ item.isUsable = false ∧ ∃ fault, Record.ofJson? item = .error fault := by
  cases item with
  | object members =>
    rw [Json.isUsable, Record.ofJson?, Record.ofMembers?]
    cases ((Json.object members).get "id").isNull with
    | true => exact .inr ⟨rfl, _, rfl⟩
    | false =>
      cases ((Json.object members).get "url").isTruthy with
      | true => exact .inl ⟨rfl, _, rfl, rfl, rfl⟩
      | false => exact .inr ⟨rfl, _, rfl⟩
  | _ => exact .inr ⟨rfl, _, rfl⟩

theorem Page.map_itemsOf (items : List Json) :
    (Page.itemsOf items).1.map (fun r => (r.id, Json.object r.raw))
      = (items.filter Json.isUsable).map fun item => (item.get "id", item) := by
  induction items with
  | nil => rfl
  | cons item items ih =>
    rw [Page.itemsOf] at ih ⊢
    rcases Record.ofJson?_cases item with ⟨husable, r, hr, hid, hraw⟩ | ⟨hnot, fault, hfault⟩
    · rw [List.filter_cons_of_pos husable, List.filterMap_cons_some (by rw [hr]; rfl),
        List.map_cons, List.map_cons, ih, hid, hraw]
    · rw [List.filter_cons_of_neg (by simp [hnot]),
        List.filterMap_cons_none (by rw [hfault]; rfl), ih]

theorem Page.keeps_of_ofJson {x : Json} {p : Page} (h : (Page.ofJson? x).2 = .ok p) :
    p.Keeps x := by
  unfold Page.ofJson? at h
  split at h
  · rename_i items hitems
    dsimp only at h
    split at h
    · cases h
      exact ⟨items, hitems, Page.map_itemsOf items⟩
    · cases h
  · cases h

/-! ## The cache -/

/-- The first id of the records that has parts. -/
def unkeyed? (items : List Record) : Option Json := (items.map Record.id).find? (!·.isAtom)

theorem Record.isSome_key?_iff {r : Record} : r.key?.isSome = true ↔ r.id.isAtom = true := by
  rw [← Key.exists_of?_iff, Record.key?]
  cases Key.of? r.id <;> simp [Except.toOption]

theorem unkeyed?_eq_none_iff {items : List Record} :
    unkeyed? items = none ↔ ∀ r ∈ items, r.key?.isSome = true := by
  rw [unkeyed?, List.find?_eq_none, List.forall_mem_map]
  simp only [Record.isSome_key?_iff, Bool.not_eq_true', Bool.not_eq_false]

theorem unkeyed?_append (xs ys : List Record) :
    unkeyed? (xs ++ ys) = (unkeyed? xs).or (unkeyed? ys) := by
  rw [unkeyed?, List.map_append, List.find?_append]
  rfl

theorem unkeyed?_split {front back : List Record} {r : Record}
    (hfront : ∀ t ∈ front, t.key?.isSome = true) (hparts : r.id.isAtom = false) :
    unkeyed? (front ++ r :: back) = some r.id := by
  rw [unkeyed?_append, unkeyed?_eq_none_iff.mpr hfront, unkeyed?, List.map_cons,
    List.find?_cons_of_pos (by rw [hparts]; rfl)]
  rfl

/-- What becomes of entries into which items are put: they have all of them, or those in front of
the first whose id has parts. -/
inductive Entries.Inserts (es : Entries) (items : List Record) :
    Entries × Except KeyFault Unit → Prop where
  | all (es' : Entries) (overlaid : Entries.Overlaid es items es') : Inserts es items (es', .ok ())
  | broken (front : List Record) (r : Record) (back : List Record) (es' : Entries)
      (split : items = front ++ r :: back) (parts : r.id.isAtom = false)
      (overlaid : Entries.Overlaid es front es') : Inserts es items (es', .error ⟨r.id.kind⟩)

/-- By induction on the items that are left. -/
theorem Entries.Overlaid.inserts {es₀ es : Entries} {prior : List Record}
    (h : Entries.Overlaid es₀ prior es) (items : List Record) :
    Entries.Inserts es₀ (prior ++ items) (es.insertAll items) := by
  induction items generalizing prior es with
  | nil =>
    rw [List.append_nil]
    exact .all es h
  | cons r rs ih =>
    rw [Entries.insertAll]
    cases hk : Key.of? r.id with
    | error fault =>
      obtain ⟨hparts, rfl⟩ := Key.of?_eq_error_iff.mp hk
      exact .broken prior r rs es rfl hparts h
    | ok k =>
      have hrest := ih (h.set (Record.key?_eq_some hk))
      rwa [List.append_assoc] at hrest

theorem Entries.inserts (es : Entries) (items : List Record) :
    Entries.Inserts es items (es.insertAll items) :=
  (Entries.overlaid_nil es).inserts items

namespace Scan

variable {s s' s₁ t : Scan} {cursor c : Option Text} {p : Page} {pages : List Page}
  {items front back rest : List Record} {r : Record} {fault : KeyFault}
  {result : Except FetchStop Unit}

/-! ## A batch of items -/

/-- Looking at items gets as far as this one, which passes the filter and has an id with parts. -/
structure BreaksAt (s : Scan) (front : List Record) (r : Record) (s' : Scan) : Prop where
  looked : s.lookAll front = (s', .ok ())
  goes : ¬ s'.isLimitReached = true
  accepted : s.assignment.filter.accepts r.prompt = true
  parts : r.id.isAtom = false

theorem look_eq_error_iff : (s.look r).2 = .error fault ↔
    s.assignment.filter.accepts r.prompt = true ∧ Key.of? r.id = .error fault := by
  unfold look
  dsimp only
  cases s.assignment.filter.accepts r.prompt with
  | false => simp
  | true =>
    cases Key.of? r.id with
    | error other => simp
    | ok k =>
      simp only [Bool.not_true, Bool.false_eq_true, if_false]
      split <;> simp

theorem lookAll_full (h : s.isLimitReached = true) (items : List Record) :
    s.lookAll items = (s, .ok ()) := by
  cases items with
  | nil => rfl
  | cons r rs => rw [lookAll, if_pos h]

theorem lookAll_cons (h : ¬ s.isLimitReached = true) (hlook : s.look r = (s', .ok ()))
    (rest : List Record) : s.lookAll (r :: rest) = s'.lookAll rest := by
  rw [lookAll, if_neg h, hlook]

theorem lookAll_cons_error (h : ¬ s.isLimitReached = true) (hlook : s.look r = (s', .error fault))
    (rest : List Record) : s.lookAll (r :: rest) = (s', .error fault) := by
  rw [lookAll, if_neg h, hlook]

theorem lookAll_append (h : s.lookAll front = (s', .ok ())) (rest : List Record) :
    s.lookAll (front ++ rest) = s'.lookAll rest := by
  induction front generalizing s with
  | nil =>
    cases h
    rfl
  | cons r rs ih =>
    by_cases hlimit : s.isLimitReached = true
    · rw [lookAll_full hlimit] at h ⊢
      cases h
      rw [lookAll_full hlimit]
    · cases hlook : s.look r with
      | mk s₁ looked =>
        cases looked with
        | error fault =>
          rw [lookAll_cons_error hlimit hlook] at h
          cases h
        | ok _ =>
          rw [lookAll_cons hlimit hlook] at h
          rw [List.cons_append, lookAll_cons hlimit hlook]
          exact ih h

/-- Looking at items breaks off just at the first one that it gets to, that passes the filter and
that has an id with parts. By induction on the items. -/
theorem lookAll_eq_error_iff : (s.lookAll items).2 = .error fault ↔ ∃ front r back s',
    items = front ++ r :: back ∧ s.BreaksAt front r s' ∧ fault = ⟨r.id.kind⟩ := by
  constructor
  · intro h
    induction items generalizing s with
    | nil => cases h
    | cons r rs ih =>
      by_cases hlimit : s.isLimitReached = true
      · rw [lookAll_full hlimit] at h
        cases h
      · cases hlook : s.look r with
        | mk s₁ looked =>
          cases looked with
          | error other =>
            rw [lookAll_cons_error hlimit hlook] at h
            cases h
            obtain ⟨haccepted, hk⟩ := look_eq_error_iff.mp (congrArg Prod.snd hlook)
            obtain ⟨hparts, rfl⟩ := Key.of?_eq_error_iff.mp hk
            exact ⟨[], r, rs, s, rfl, ⟨rfl, hlimit, haccepted, hparts⟩, rfl⟩
          | ok _ =>
            rw [lookAll_cons hlimit hlook] at h
            obtain ⟨front, t, back, s', rfl, hbreaks, hfault⟩ := ih h
            have hassignment := (steady_look s r).assignment
            rw [hlook] at hassignment
            refine ⟨r :: front, t, back, s', rfl, ⟨?_, hbreaks.goes, ?_, hbreaks.parts⟩, hfault⟩
            · rw [lookAll_cons hlimit hlook, hbreaks.looked]
            · rw [← hassignment]
              exact hbreaks.accepted
  · rintro ⟨front, r, back, s', rfl, hbreaks, rfl⟩
    have hassignment := (steady_lookAll s front).assignment
    rw [hbreaks.looked] at hassignment
    have hlook : (s'.look r).2 = .error ⟨r.id.kind⟩ := by
      refine look_eq_error_iff.mpr ⟨?_, Key.of?_eq_error_iff.mpr ⟨hbreaks.parts, rfl⟩⟩
      rw [show s'.assignment = s.assignment from hassignment]
      exact hbreaks.accepted
    rw [lookAll_append hbreaks.looked, lookAll_cons_error hbreaks.goes (Prod.ext rfl hlook)]

theorem lookAll_of_keys (h : ∀ r ∈ items, r.key?.isSome = true) (s : Scan) :
    (s.lookAll items).2 = .ok () := by
  cases hlook : (s.lookAll items).2 with
  | ok _ => rfl
  | error fault =>
    obtain ⟨front, r, back, s', rfl, hbreaks, -⟩ := lookAll_eq_error_iff.mp hlook
    have hkey := Record.isSome_key?_iff.mp (h r (by simp))
    cases hkey.symm.trans hbreaks.parts

/-! ## A page -/

/-- What becomes of a scan that takes in a page. Either all items go into the cache, which is saved,
and are looked at; or the cache in memory has the items in front of the first whose id has parts,
and nothing else has happened. -/
inductive Takes (s : Scan) (p : Page) : Scan × Except KeyFault Unit → Prop where
  | all (es : Entries) (s' : Scan) (overlaid : Entries.Overlaid s.cache.entries p.items es)
      (looked : (save { s with cache := { s.cache with entries := es } }).lookAll p.items
        = (s', .ok ())) : Takes s p (s', .ok ())
  | broken (front : List Record) (r : Record) (back : List Record) (es : Entries)
      (split : p.items = front ++ r :: back) (parts : r.id.isAtom = false)
      (overlaid : Entries.Overlaid s.cache.entries front es) :
      Takes s p ({ s with cache := { s.cache with entries := es } }, .error ⟨r.id.kind⟩)

/-- Once the items are in the cache, looking at them does not break off. -/
theorem takes_takePage (s : Scan) (p : Page) : s.Takes p (s.takePage p) := by
  have hinserts := Entries.inserts s.cache.entries p.items
  unfold takePage Cache.insertAll
  generalize s.cache.entries.insertAll p.items = inserted at hinserts ⊢
  cases hinserts with
  | all es overlaid =>
    have hlook := lookAll_of_keys overlaid.keyed
      (save { s with cache := { s.cache with entries := es } })
    have htakes := Takes.all es _ overlaid (Prod.ext rfl hlook)
    rwa [← hlook] at htakes
  | broken front r back es split parts overlaid =>
    exact .broken front r back es split parts overlaid

theorem Takes.unkeyed (h : s.Takes p (s', .error fault)) :
    ∃ id, unkeyed? p.items = some id ∧ fault = ⟨id.kind⟩ := by
  cases h with
  | broken front r back es split parts overlaid =>
    exact ⟨r.id, by rw [split, unkeyed?_split overlaid.keyed parts], rfl⟩

/-- A page that breaks off leaves disk, log and downloads as they are. -/
theorem Takes.slots (h : s.Takes p (s', .error fault)) : s'.slots = s.slots := by
  cases h
  rfl

/-! ## The loop over pages -/

theorem fetch_ne_key (s : Scan) (cursor : Option Text) (fault : KeyFault) :
    (s.fetch cursor).2 ≠ .error (.stop (.breakdown (.key fault))) := by
  intro h
  have hresult : (fetchPage s.assignment.client (s.query cursor) s.replies).result = _ := h
  rcases fetchFrom_course s.assignment.client (s.query cursor) 0 s.assignment.client.retries
    s.replies with ⟨pauses, -, hexchange⟩ | hgivesUp
  · have hdecided := hexchange.decided.symm.trans hresult
    unfold conclude at hdecided
    split at hdecided
    · unfold FetchStop.ofTransport at hdecided
      split at hdecided <;> cases hdecided
    · rename_i a _
      have hverdict := verdict_pageOf (s.query cursor) a
      rw [show (pageOf (s.query cursor) a).2 = _ from hdecided] at hverdict
      obtain ⟨_, _, _, hstop, _⟩ := misdirects_of_verdict hverdict
      cases hstop
  · obtain ⟨i, -, a, stop, -, hpause, hstop⟩ := hgivesUp.due
    cases hstop.symm.trans hresult
    unfold pauseBefore at hpause
    repeat' split at hpause
    all_goals cases hpause

theorem TakesIn.keyed (h : TakesIn s cursor p t) : unkeyed? p.items = none := by
  obtain ⟨es, hes, -⟩ := takePage_eq_ok h.taken
  exact unkeyed?_eq_none_iff.mpr ((Entries.overlaid_nil _).insertAll hes).keyed

theorem TakesIn.overlaid {E₀ : Entries} {items : List Record} (h : TakesIn s cursor p t)
    (hs : Entries.Overlaid E₀ items s.cache.entries) :
    Entries.Overlaid E₀ (items ++ p.items) t.cache.entries := by
  obtain ⟨es, hes, hlook⟩ := takePage_eq_ok h.taken
  let s₁ : Scan := { s.arrived cursor p with cache := { s.cache with entries := es } }
  have hrests := rests_lookAll s₁.save p.items
  rw [show s₁.save.lookAll p.items = (t, .ok ()) from hlook] at hrests
  rw [hrests.cache]
  exact hs.insertAll hes

/-- Every page was a listing. -/
theorem Course.listings (h : Course s cursor pages s' result) :
    ∀ q ∈ pages, ∃ x, (Page.ofJson? x).2 = .ok q := by
  have hlisting : ∀ {s : Scan} {cursor : Option Text} {p : Page}, (s.fetch cursor).2 = .ok p →
      ∃ x, (Page.ofJson? x).2 = .ok p := by
    intro s cursor p hfetch
    obtain ⟨_, x, _, hx⟩ := listing_of_fetchFrom hfetch
    exact ⟨x, hx⟩
  induction h with
  | full limit => exact List.forall_mem_nil _
  | failed e goes fetched => exact List.forall_mem_nil _
  | noImages p goes fetched first empty => exact List.forall_mem_singleton.mpr (hlisting fetched)
  | noKey p fault goes fetched taken => exact List.forall_mem_singleton.mpr (hlisting fetched)
  | last p first isLast => exact List.forall_mem_singleton.mpr (hlisting first.fetched)
  | more first more rest ih => exact List.forall_mem_cons.mpr ⟨hlisting first.fetched, ih⟩

/-- The loop breaks off over an id just where it has fetched one that has parts, and tells the first
of them. By induction on the pages. -/
theorem Course.breaks_iff (h : Course s cursor pages s' result) :
    result = .error (.stop (.breakdown (.key fault))) ↔
      ∃ id, unkeyed? (itemsOf pages) = some id ∧ fault = ⟨id.kind⟩ := by
  have hnone : unkeyed? [] = none := rfl
  induction h with
  | full limit => simp [itemsOf, hnone]
  | @failed s cursor e goes fetched =>
    constructor
    · intro h
      cases h
      exact absurd fetched (fetch_ne_key s cursor fault)
    · rintro ⟨id, hid, -⟩
      cases hnone.symm.trans hid
  | noImages p goes fetched first empty => simp [itemsOf_singleton, empty, hnone]
  | @noKey s s₃ cursor p other goes fetched taken =>
    have htakes := takes_takePage (s.arrived cursor p) p
    rw [taken] at htakes
    obtain ⟨id, hid, rfl⟩ := htakes.unkeyed
    simp [itemsOf_singleton, hid, eq_comm]
  | last p first isLast => simp [itemsOf_singleton, first.keyed]
  | @more s s₁ s' cursor p pages r first more rest ih =>
    refine ih.trans ?_
    rw [← List.singleton_append, itemsOf_append, itemsOf_singleton, unkeyed?_append, first.keyed,
      Option.none_or]

/-- However the loop leaves off, the cache has all items that have been fetched, if no id has
parts. -/
theorem Course.overlaid {E₀ : Entries} {prior : List Record} (h : Course s cursor pages s' result)
    (hs : Entries.Overlaid E₀ prior s.cache.entries) (hkeys : unkeyed? (itemsOf pages) = none) :
    Entries.Overlaid E₀ (prior ++ itemsOf pages) s'.cache.entries := by
  induction h generalizing prior with
  | full limit => simpa [itemsOf] using hs
  | failed e goes fetched =>
    rw [show itemsOf [] = [] from rfl, List.append_nil]
    exact hs
  | noImages p goes fetched first empty =>
    rw [itemsOf_singleton, empty, List.append_nil]
    exact hs
  | @noKey s s₃ cursor p other goes fetched taken =>
    obtain ⟨id, hid, -⟩ := (Course.noKey p other goes fetched taken).breaks_iff.mp rfl
    cases hid.symm.trans hkeys
  | last p first isLast =>
    rw [itemsOf_singleton]
    exact first.overlaid hs
  | @more s s₁ s' cursor p pages r first more rest ih =>
    rw [← List.singleton_append, itemsOf_append, itemsOf_singleton, unkeyed?_append, first.keyed,
      Option.none_or] at hkeys
    have hrest := ih (first.overlaid hs) hkeys
    rwa [List.append_assoc, ← itemsOf_singleton, ← itemsOf_append, List.singleton_append] at hrest

/-- The first page that the loop gets to is the first of its pages. -/
theorem Course.head (h : Course s cursor pages s' result) (hgoes : ¬ s.isLimitReached = true)
    (hfetch : (s.fetch cursor).2 = .ok p) : ∃ rest, pages = p :: rest := by
  cases h with
  | full limit => exact absurd limit hgoes
  | failed e goes fetched => cases fetched.symm.trans hfetch
  | noImages q goes fetched first empty =>
    cases fetched.symm.trans hfetch
    exact ⟨[], rfl⟩
  | noKey q fault goes fetched taken =>
    cases fetched.symm.trans hfetch
    exact ⟨[], rfl⟩
  | last q first isLast =>
    cases first.fetched.symm.trans hfetch
    exact ⟨[], rfl⟩
  | more first more rest =>
    cases first.fetched.symm.trans hfetch
    exact ⟨_, rfl⟩

/-- Where the loop breaks off over an id, all pages but the last were taken in, and that one was
not. -/
theorem Course.broken (h : Course s cursor pages s' (.error (.stop (.breakdown (.key fault))))) :
    ∃ front p t c, pages = front ++ [p] ∧ Passes s cursor front t c
      ∧ (t.arrived c p).Takes p (s', .error fault) := by
  generalize hresult : Except.error (FetchStop.stop (.breakdown (.key fault))) = result at h
  induction h with
  | full limit => cases hresult
  | @failed s cursor e goes fetched =>
    cases hresult
    exact absurd fetched (fetch_ne_key s cursor fault)
  | noImages p goes fetched first empty => cases hresult
  | @noKey s s₃ cursor p other goes fetched taken =>
    cases hresult
    have htakes := takes_takePage (s.arrived cursor p) p
    rw [taken] at htakes
    exact ⟨[], p, s, cursor, rfl, .here s cursor, htakes⟩
  | last p first isLast => cases hresult
  | @more s s₁ s' cursor p pages r first more rest ih =>
    obtain ⟨front, q, t, c, rfl, hpasses, htakes⟩ := ih hresult
    exact ⟨p :: front, q, t, c, rfl, .on first more hpasses, htakes⟩

/-! ## The whole run -/

theorem Course.balanced {folder quality : Text} {n : Nat} (h : Course s cursor pages s' result)
    (hs : s.slots.Balanced folder quality n true 0)
    (hnames : ∀ r ∈ itemsOf pages, (r.target quality).fileName.isEncodable = true) :
    s'.slots.Balanced folder quality n true 0 := by
  induction h with
  | full limit => exact hs
  | failed e goes fetched => exact { hs with }
  | noImages p goes fetched first empty => exact { hs with }
  | @noKey s s₃ cursor p other goes fetched taken =>
    have htakes := takes_takePage (s.arrived cursor p) p
    rw [taken] at htakes
    rw [htakes.slots]
    exact { hs with }
  | last p first isLast =>
    rw [itemsOf_singleton] at hnames
    exact first.balanced hs hnames
  | @more s s₁ s' cursor p pages r first more rest ih =>
    rw [← List.singleton_append, itemsOf_append, itemsOf_singleton] at hnames
    exact ih (first.balanced hs fun r hr => hnames r (List.mem_append_left _ hr))
      fun r hr => hnames r (List.mem_append_right _ hr)

/-- Behind the pages only a stop of theirs ends the run, as long as its downloads do not. -/
theorem Finish.stop_of_drains {stop : Stop} {end? : Except ScanStop Unit}
    (h : Finish s result s' end?) (hend : end? = .error (.stop stop))
    (hsaved : ∃ t, s.save.drain = (t, .ok ())) (hdrain : ∃ t, s.drain = (t, .ok ())) :
    result = .error (.stop stop) := by
  obtain ⟨t, ht⟩ := hsaved
  obtain ⟨u, hu⟩ := hdrain
  cases h with
  | stopped stop' =>
    cases hend
    rfl
  | notAborted e stop' drained => cases ht.symm.trans drained
  | aborted e drained => cases hend
  | notDone stop' drained => cases hu.symm.trans drained
  | done drained => cases hend

section Whole

variable {a : Assignment} {fresh : Cache} {quality : Text} {concurrency : Int}
  {replies : List ListingReply} {images : ImageServer} {disk : Disk} {s₀ : Scan}

/-- Where no page has an id with parts and the files have names with a form in bytes, the run is
ended only by what ended the fetching of a page. -/
theorem Course.stop_of_run {stop : Stop} {end? : Except ScanStop Unit}
    (h : Course { s₀ with phase := .scanning } none pages s₁ result)
    (hfinish : Finish s₁ result s' end?) (hfree : a.hindrance = none)
    (himages : ∀ i ∈ images, i.2.IsOrdinary)
    (hprepare : (start a fresh quality concurrency replies images disk).prepare = (s₀, .ok ()))
    (hnames : ∀ r ∈ itemsOf pages, (r.target quality).fileName.isEncodable = true)
    (hend : end? = .error (.stop stop)) : result = .error (.stop stop) := by
  have hstart := balanced_prepare (checkPath_of_prepare hprepare) himages hprepare
  have hs₀ : ({ s₀ with phase := .scanning } : Scan).slots.Balanced fresh.folder quality
      (Slots.capacityFor concurrency) true 0 := hstart
  have hs₁ := h.balanced hs₀ hnames
  have hassignment : s₁.assignment.hindrance = none := by
    rw [h.assignment, (ready_of_prepare hprepare).assignment, hfree]
  have hsaved : s₁.save.slots.Balanced fresh.folder quality (Slots.capacityFor concurrency) true
    0 := { hs₁ with }
  exact hfinish.stop_of_drains hend (drain_of_balanced hsaved hassignment)
    (drain_of_balanced hs₁ hassignment)

/-- How an online run comes out that has fetched these pages. Either an id of the last of them has
parts, and the run ends with it; or all items of all pages are in the cache, and then what may still
end the run from outside is the fetching of a page or a file whose name has no form in bytes. -/
inductive Runs (scan s₀ : Scan) (quality : Text) (pages : List Page) (s₁ : Scan) :
    Except FetchStop Unit → Prop where
  | broken (front : List Page) (p : Page) (t : Scan) (c : Option Text) (id : Json)
      (split : pages = front ++ [p]) (first : unkeyed? (itemsOf pages) = some id)
      (passes : Passes { s₀ with phase := .scanning } none front t c)
      (taken : (t.arrived c p).Takes p (s₁, .error ⟨id.kind⟩))
      (slots : s₁.slots = (t.arrived c p).slots)
      (run : scan.run = (s₁, .error (.stop (.breakdown (.key ⟨id.kind⟩))))) :
      Runs scan s₀ quality pages s₁ (.error (.stop (.breakdown (.key ⟨id.kind⟩))))
  | whole (result : Except FetchStop Unit) (keyed : unkeyed? (itemsOf pages) = none)
      (overlaid : Entries.Overlaid s₀.cache.entries (itemsOf pages) s₁.cache.entries)
      (noKey : ∀ fault, result ≠ .error (.stop (.breakdown (.key fault))))
      (stops : (∀ r ∈ itemsOf pages, (r.target quality).fileName.isEncodable = true) →
        ∀ stop, scan.run.2 = .error (.stop stop) → result = .error (.stop stop)) :
      Runs scan s₀ quality pages s₁ result

theorem Course.runs (h : Course { s₀ with phase := .scanning } none pages s₁ result)
    (hprepare : (start a fresh quality concurrency replies images disk).prepare = (s₀, .ok ()))
    (hfinish : Finish s₁ result (start a fresh quality concurrency replies images disk).run.1
      (start a fresh quality concurrency replies images disk).run.2)
    (hfree : a.hindrance = none) (himages : ∀ i ∈ images, i.2.IsOrdinary) :
    Runs (start a fresh quality concurrency replies images disk) s₀ quality pages s₁ result := by
  cases hfirst : unkeyed? (itemsOf pages) with
  | some id =>
    have hresult : result = .error (.stop (.breakdown (.key ⟨id.kind⟩))) :=
      h.breaks_iff.mpr ⟨id, hfirst, rfl⟩
    subst hresult
    obtain ⟨front, p, t, c, hsplit, hpasses, htaken⟩ := h.broken
    refine .broken front p t c id hsplit hfirst hpasses htaken htaken.slots ?_
    generalize (start a fresh quality concurrency replies images disk).run = ended at hfinish ⊢
    obtain ⟨s', end?⟩ := ended
    cases hfinish
    rfl
  | none =>
    refine .whole result hfirst ?_ ?_ ?_
    · exact h.overlaid (Entries.overlaid_nil s₀.cache.entries) hfirst
    · intro fault hresult
      obtain ⟨id, hid, -⟩ := h.breaks_iff.mp hresult
      cases hid.symm.trans hfirst
    · intro hnames stop hend
      exact h.stop_of_run hfinish hfree himages hprepare hnames hend

end Whole

/-- Whatever a page of a listing holds, just the ids with parts keep its items from being put into
entries, from being taken in by a scan and from being looked at, and of these the first one is told.
So an online run over pages breaks off where an id of theirs has parts, and else takes in all of
their items. -/
theorem breaks_off_at_parts (a : Assignment) (fresh : Cache) (quality : Text) (concurrency : Int)
    (replies : List ListingReply) (images : ImageServer) (disk : Disk)
    (honline : a.offline = false) (hfree : a.hindrance = none)
    (himages : ∀ i ∈ images, i.2.IsOrdinary) :
    (∀ (x : Json) (p : Page), (Page.ofJson? x).2 = .ok p → p.Keeps x
      ∧ (∀ es : Entries, es.Inserts p.items (es.insertAll p.items))
      ∧ (∀ s : Scan, s.Takes p (s.takePage p))
      ∧ ∀ (s : Scan) (fault : KeyFault), (s.lookAll p.items).2 = .error fault ↔
        ∃ front r back s', p.items = front ++ r :: back ∧ s.BreaksAt front r s'
          ∧ fault = ⟨r.id.kind⟩)
    ∧ ∀ s₀, (start a fresh quality concurrency replies images disk).prepare = (s₀, .ok ()) →
      ∃ pages s₁ result, Course { s₀ with phase := .scanning } none pages s₁ result
        ∧ (∀ p ∈ pages, ∃ x, (Page.ofJson? x).2 = .ok p)
        ∧ Runs (start a fresh quality concurrency replies images disk) s₀ quality pages s₁
          result := by
  constructor
  · intro x p hp
    exact ⟨Page.keeps_of_ofJson hp, fun es => es.inserts p.items, fun s => takes_takePage s p,
      fun s fault => lookAll_eq_error_iff⟩
  · intro s₀ hprepare
    obtain ⟨pages, s₁, result, hcourse, hfinish⟩ := exists_course_of_run honline hprepare
    exact ⟨pages, s₁, result, hcourse, hcourse.listings,
      hcourse.runs hprepare hfinish hfree himages⟩

end Scan

/-! ## An id that is a list -/

namespace ListId

open Scan

def listing : Text := "\x7b\"items\":[\x7b\"id\":[1],\"url\":\"u\"\x7d]\x7d"

def page : Page :=
  ⟨[⟨.array [.int 1], "u", none, [("id", .array [.int 1]), ("url", .text "u")]⟩], none⟩

/-- Not every page can be put into a cache. -/
theorem not_all_cached : ¬ ∀ (x : Json) (p : Page), (Page.ofJson? x).2 = .ok p →
    ∀ es : Entries, ∃ es', es.insertAll p.items = (es', .ok ()) := by
  intro h
  have hpage : (Page.ofJson? (.object [("items", .array [.object [("id", .array [.int 1]),
      ("url", .text "u")]])])).2 = .ok page := by
    cbv
  obtain ⟨es', hes⟩ := h _ page hpage []
  cases congrArg Prod.snd hes

/-- A scan for dogs, of which there is none on the page. -/
def scan : Scan :=
  start Unmatched.assignment Unmatched.fresh "SD" 1 [.ok ⟨200, [], [], listing⟩] [] Unmatched.disk

def ready : Scan := { Unmatched.ready with replies := scan.replies }

theorem prepare_scan : scan.prepare = (ready, .ok ()) := by
  show prepare { Unmatched.scan with replies := scan.replies } = _
  rw [prepare_replies, Unmatched.prepare_scan]
  rfl

set_option maxRecDepth 10000 in
theorem fetch_ready : ({ ready with phase := .scanning }.fetch none).2 = .ok page := by
  cbv

/-- At a page of one item, which does not match. -/
theorem breaks_off_at_list :
    ∃ s₁, scan.run = (s₁, .error (.stop (.breakdown (.key ⟨"list"⟩)))) := by
  obtain ⟨-, hruns⟩ := breaks_off_at_parts Unmatched.assignment Unmatched.fresh "SD" 1
    scan.replies [] Unmatched.disk rfl rfl (List.forall_mem_nil _)
  obtain ⟨pages, s₁, result, hcourse, -, hout⟩ := hruns ready prepare_scan
  obtain ⟨rest, rfl⟩ := hcourse.head (by decide) fetch_ready
  cases hout with
  | broken front p t c id split first passes taken slots run =>
    cases first
    exact ⟨s₁, run⟩
  | whole result keyed overlaid noKey stops => cases keyed

end ListId

end GalleryScan
