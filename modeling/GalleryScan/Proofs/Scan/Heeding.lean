import GalleryScan.Proofs.Download.Echoing
import GalleryScan.Proofs.Listing.Masking
import GalleryScan.Proofs.Scan.Selection

/-!
# What a scan does not heed

Only where a page is fetched does a scan read its key or the replies to come, and nowhere does it
read what has been said. So everything else that it does is the same for another key, other replies
and another log, and the same is said behind it:

> `f (s.retold key replies log) = ((f s).1.retold key replies (log ++ said), (f s).2)`

What it asks for meanwhile are images.
-/

set_option autoImplicit false

namespace GalleryScan

namespace Scan

/-- The scan with another key, other replies to come, and another log. -/
def retold (s : Scan) (key : Json) (replies : List ListingReply) (log : Log) : Scan :=
  { s with
    assignment := { s.assignment with client := s.assignment.client.withOther key }
    replies
    slots := { s.slots with log } }

/-- At this scan `f` heeds neither the key nor the replies nor the log, and unless the listener asks
for more, it asks for nothing but images. -/
structure Heedless {α : Type} (f : Scan → Scan × α) (s : Scan) : Prop where
  adds : ∃ said : Log, (s.slots.HearsSilently → said.AsksForImages)
    ∧ ∀ key replies log,
      f (s.retold key replies log) = ((f s).1.retold key replies (log ++ said), (f s).2)
  listener : (f s).1.slots.listener = s.slots.listener

section Steps

variable {α β : Type} {f : Scan → Scan × α} {s : Scan}

theorem Heedless.silent (h : Heedless f s) (hs : s.slots.HearsSilently) :
    (f s).1.slots.HearsSilently := fun hear hl => hs hear (h.listener ▸ hl)

theorem Heedless.key (h : Heedless f s) :
    (f s).1.assignment.client.apiKey = s.assignment.client.apiKey := by
  obtain ⟨said, -, hsaid⟩ := h.adds
  exact congrArg (·.1.assignment.client.apiKey) (hsaid _ s.replies s.log)

theorem Heedless.replies (h : Heedless f s) : (f s).1.replies = s.replies := by
  obtain ⟨said, -, hsaid⟩ := h.adds
  exact congrArg (·.1.replies) (hsaid s.assignment.client.apiKey s.replies s.log)

/-- Other replies alone change nothing but the replies. -/
theorem Heedless.withReplies (h : Heedless f s) (replies : List ListingReply) :
    f { s with replies } = ({ (f s).1 with replies }, (f s).2) := by
  obtain ⟨said, -, hsaid⟩ := h.adds
  have hself := congrArg Prod.fst (hsaid s.assignment.client.apiKey s.replies s.log)
  have hother := hsaid s.assignment.client.apiKey replies s.log
  exact hother.trans (Prod.ext (congrArg ({ · with replies }) hself).symm rfl)

/-- What is done first may decide what is done next. -/
theorem Heedless.trans {g : α → Scan → Scan × β} (h : Heedless f s)
    (h' : Heedless (g (f s).2) (f s).1) : Heedless (fun s => g (f s).2 (f s).1) s := by
  obtain ⟨said, hasks, hsaid⟩ := h.adds
  obtain ⟨more, hasks', hmore⟩ := h'.adds
  refine ⟨⟨said ++ more, fun hs => (hasks hs).append (hasks' (h.silent hs)), ?_⟩,
    h'.listener.trans h.listener⟩
  intro key replies log
  rw [hsaid, hmore, List.append_assoc]

/-- What is done counts only at this scan, as it is or retold. -/
theorem Heedless.congr {g : Scan → Scan × α} (h : Heedless g s)
    (heq : ∀ key replies log, f (s.retold key replies log) = g (s.retold key replies log)) :
    Heedless f s := by
  have hs : f s = g s := heq s.assignment.client.apiKey s.replies s.log
  obtain ⟨said, hasks, hsaid⟩ := h.adds
  refine ⟨⟨said, hasks, ?_⟩, hs ▸ h.listener⟩
  intro key replies log
  rw [heq, hs]
  exact hsaid key replies log

/-- What is done after a step without a result of its own. -/
theorem Heedless.after {u : Scan → Scan} {x : α} {g : Scan → Scan × β}
    (h : Heedless (fun s => (u s, x)) s) (h' : Heedless g (u s)) : Heedless (fun s => g (u s)) s :=
  h.trans (g := fun _ => g) h'

variable (x : α)

theorem heedless_of_said {u : Scan → Scan} (said : Log) (hasks : said.requests = [])
    (hu : ∀ key replies log,
      u (s.retold key replies log) = (u s).retold key replies (log ++ said))
    (hl : (u s).slots.listener = s.slots.listener) : Heedless (fun s => (u s, x)) s :=
  ⟨⟨said, fun _ => Log.asksForImages_of_nil hasks,
    fun key replies log => Prod.ext (hu key replies log) rfl⟩, hl⟩

/-- What says nothing. -/
theorem heedless_of_quiet {u : Scan → Scan}
    (hu : ∀ key replies log, u (s.retold key replies log) = (u s).retold key replies log)
    (hl : (u s).slots.listener = s.slots.listener) : Heedless (fun s => (u s, x)) s := by
  refine heedless_of_said x [] rfl (fun key replies log => ?_) hl
  rw [List.append_nil]
  exact hu key replies log

theorem heedless_return (s : Scan) : Heedless (fun s => (s, x)) s :=
  heedless_of_quiet x (u := id) (fun _ _ _ => rfl) rfl

/-- What is done after a step that may fail. -/
def unlessFailed {ε : Type} (g : α → Scan → Scan × Except ε β) :
    Except ε α → Scan → Scan × Except ε β
  | .ok a, s => g a s
  | .error e, s => (s, .error e)

theorem Heedless.unlessFailed {ε : Type} {f : Scan → Scan × Except ε α}
    {g : α → Scan → Scan × Except ε β} (h : Heedless f s)
    (h' : ∀ a, (f s).2 = .ok a → Heedless (g a) (f s).1) :
    Heedless (fun s => Scan.unlessFailed g (f s).2 (f s).1) s := by
  refine h.trans ?_
  cases hresult : (f s).2 with
  | ok a => exact h' a hresult
  | error e => exact heedless_return (Except.error e) _

theorem heedless_say {said : Log} (hasks : said.requests = []) (s : Scan) :
    Heedless (fun s => (s.say said, x)) s :=
  heedless_of_said x said hasks (fun _ _ _ => rfl) rfl

end Steps

/-! ## Items -/

section Items

variable {s : Scan} {r : Record}

theorem look_rejected (hp : ¬ s.assignment.filter.accepts r.prompt = true) :
    s.look r = (s.glance, .ok ()) :=
  if_pos (by simpa using hp)

theorem look_accepted (hp : s.assignment.filter.accepts r.prompt = true) :
    s.look r = match Key.of? r.id with
      | .error fault => (s.glance, .error fault)
      | .ok k =>
        if s.glance.matched.contains k then
          (s.glance.say
            [.detail ("Already matched " ++ r.id.plain ++ " on an earlier page")], .ok ())
        else (s.glance.take k r, .ok ()) :=
  if_neg (by simpa using hp)

theorem heedless_take {α : Type} (x : α) (s : Scan) (k : Key) (r : Record) :
    Heedless (fun s => (s.take k r, x)) s := by
  refine heedless_of_quiet x (fun key replies log => ?_) (steady_take s k r).listener
  unfold take
  dsimp only [retold]
  split <;> rfl

theorem heedless_glance {α : Type} (x : α) (s : Scan) : Heedless (fun s => (s.glance, x)) s :=
  heedless_of_quiet x (fun _ _ _ => rfl) rfl

theorem heedless_look (s : Scan) (r : Record) : Heedless (·.look r) s := by
  by_cases hp : s.assignment.filter.accepts r.prompt = true
  · cases hk : Key.of? r.id with
    | error fault =>
      refine (heedless_glance (Except.error fault) s).congr fun key replies log => ?_
      rw [look_accepted (s := s.retold key replies log) hp, hk]
    | ok k =>
      by_cases hm : s.matched.contains k = true
      · have hsay : Heedless (fun s => (s.say [.detail ("Already matched " ++ r.id.plain
            ++ " on an earlier page")], (Except.ok () : Except KeyFault Unit))) s.glance :=
          heedless_say _ rfl s.glance
        refine ((heedless_glance () s).after hsay).congr fun key replies log => ?_
        rw [look_accepted (s := s.retold key replies log) hp, hk]
        exact if_pos hm
      · have htake := heedless_take (Except.ok () : Except KeyFault Unit) s.glance k r
        refine ((heedless_glance () s).after htake).congr fun key replies log => ?_
        rw [look_accepted (s := s.retold key replies log) hp, hk]
        exact if_neg hm
  · exact (heedless_glance (Except.ok ()) s).congr fun key replies log =>
      look_rejected (s := s.retold key replies log) hp

/-- By induction on the items. -/
theorem heedless_lookAll (s : Scan) (items : List Record) : Heedless (·.lookAll items) s := by
  induction items generalizing s with
  | nil => exact heedless_return (Except.ok ()) s
  | cons r rs ih =>
    by_cases hlimit : s.isLimitReached = true
    · exact (heedless_return (Except.ok ()) s).congr fun key replies log => if_pos hlimit
    · have hrest := (heedless_look s r).unlessFailed (g := fun _ t => t.lookAll rs) fun _ _ => ih _
      refine hrest.congr fun key replies log => ?_
      rw [lookAll]
      refine (if_neg hlimit).trans ?_
      rcases (s.retold key replies log).look r with ⟨t, _ | _⟩ <;> rfl

end Items

/-! ## Pages -/

section Pages

variable {α : Type} (x : α) (s : Scan)

theorem heedless_save : Heedless (fun s => (s.save, x)) s :=
  heedless_of_said x _ (requests_save s.cache s.disk) (fun _ _ _ => rfl) rfl

theorem heedless_countPage (p : Page) : Heedless (fun s => (s.countPage p, x)) s :=
  heedless_of_said x [pageDetail (s.pages + 1) p] rfl (fun _ _ _ => rfl) rfl

theorem heedless_noteEmpty : Heedless (fun s => (s.noteEmpty, x)) s :=
  heedless_of_said x [emptyReport s.assignment.username.plain] rfl (fun _ _ _ => rfl) rfl

theorem heedless_takePage (p : Page) : Heedless (·.takePage p) s := by
  cases hinsert : s.cache.insertAll p.items with
  | mk cache result =>
    have hinsert' : ∀ key replies log,
        (s.retold key replies log).cache.insertAll p.items = (cache, result) :=
      fun _ _ _ => hinsert
    have hcache : Heedless (fun s => ({ s with cache }, result)) s :=
      heedless_of_quiet result (u := fun s => { s with cache }) (fun _ _ _ => rfl) rfl
    cases result with
    | error fault =>
      refine hcache.congr fun key replies log => ?_
      rw [takePage, hinsert']
    | ok _ =>
      have hlook := (heedless_save () { s with cache }).after (heedless_lookAll _ p.items)
      refine (hcache.after hlook).congr fun key replies log => ?_
      rw [takePage, hinsert']

end Pages

/-! ## Before and after the pages -/

/-- What is said before the first look: what it says to load the cache. -/
def foreword (s : Scan) : Log :=
  match s.disk.makeFolders s.cache.folder with
  | (disk, .ok ()) => (s.cache.load disk).1
  | (_, .error _) => []

theorem requests_foreword (s : Scan) : s.foreword.requests = [] := by
  unfold foreword
  split
  · exact requests_load _ _
  · rfl

theorem heedless_prepare (s : Scan) : Heedless prepare s := by
  refine ⟨⟨s.foreword, fun _ => Log.asksForImages_of_nil s.requests_foreword, ?_⟩, ?_⟩
  · intro key replies log
    unfold prepare foreword
    dsimp only [retold, Scan.disk, withDisk, say]
    cases s.slots.disk.makeFolders s.cache.folder with
    | mk disk result =>
      cases result with
      | error fault =>
        dsimp only
        rw [List.append_nil]
      | ok _ =>
        dsimp only
        rcases s.cache.load disk with ⟨said, cache, (fault | digits) | _⟩
        · rfl
        · rfl
        · dsimp only
          cases cache.indexFiles disk with
          | error fault => rfl
          | ok cache =>
            dsimp only
            cases s.assignment.offline && cache.isEmpty with
            | true => rfl
            | false =>
              rw [if_neg Bool.false_ne_true, if_neg Bool.false_ne_true]
              unfold canShowBars
              dsimp only
              split <;> rfl
  · unfold prepare
    dsimp only
    repeat' split
    all_goals rfl

/-- The listing has no part in what comes before the first page. -/
theorem prepare_replies (s : Scan) (replies : List ListingReply) :
    prepare { s with replies } = ({ (s.prepare).1 with replies }, (s.prepare).2) :=
  (heedless_prepare s).withReplies replies

/-- Where nothing keeps them from starting, the downloads run. -/
theorem drain_eq_of_free {s : Scan} (h : s.hindrance? = none) :
    s.drain = ({ s with phase := .draining, slots := s.slots.drain },
      match s.slots.drain.stop with
      | none => .ok ()
      | some stop => .error stop) := by
  rw [drain, h]
  dsimp only
  cases s.slots.drain.stop <;> rfl

theorem heedless_drain (s : Scan) : Heedless drain s := by
  cases hh : s.hindrance? with
  | some b =>
    have hstop := heedless_of_quiet (s := s) (Except.error (.breakdown b) : Except Stop Unit)
      (u := fun s => { s with phase := .draining, slots := { s.slots with waiting := [] } })
      (fun _ _ _ => rfl) rfl
    refine hstop.congr fun key replies log => ?_
    rw [drain, show (s.retold key replies log).hindrance? = some b from hh]
  | none =>
    have hspeaks := Slots.speaks_drain s.slots
    obtain ⟨said, hsaid, hasks⟩ := hspeaks.adds
    refine ⟨⟨said, hasks, fun key replies log => ?_⟩, ?_⟩
    · have hh' : (s.retold key replies log).hindrance? = none := hh
      have hslots : (s.retold key replies log).slots.drain
          = { s.slots.drain with log := log ++ said } := hsaid log
      rw [drain_eq_of_free hh', drain_eq_of_free hh, hslots]
      rfl
    · rw [drain_eq_of_free hh]
      exact hspeaks.keeps.listener

end Scan

end GalleryScan
