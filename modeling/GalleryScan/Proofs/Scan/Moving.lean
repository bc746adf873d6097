import GalleryScan.Proofs.Download.Working
import GalleryScan.Proofs.Scan.Gathering
import GalleryScan.Proofs.Scan.Ordinary

/-!
# The moves of a scan

A scan makes its way in moves: it is prepared, fetches a page, saves, looks at an item, waits for
its downloads. In between a download may start or go on at any time, for which whoever looks does
not wait. The counts of the scan are written where it looks and where a download ends, and they
agree after every move. The invariant is `Balanced`: what was counted is what the items looked at
come to, with as many jobs submitted as downloads counted; and the books of the jobs are right.

> `s.Balanced a p q n seen → Move start s looked t → t.Balanced a p q n (seen ++ looked)`

Looking does not depend on how far the downloads are, so what one item adds to the counts is what it
adds where no download has started (`Counted.look_ok`).
-/

set_option autoImplicit false

namespace GalleryScan

/-- The phases in their order: after the one comes the other. -/
inductive Phase.Leads : Phase → Phase → Prop where
  | scan : Leads .init .scanning
  | giveUp : Leads .init .aborted
  | drain : Leads .scanning .draining
  | finish : Leads .draining .done
  | abort : Leads .draining .aborted

namespace Filter

variable (f : Filter)

/-- The first matches have different ids. -/
theorem nodup_keys_firstMatches (items : List Record) :
    ((f.firstMatches items).map Record.key?).Nodup := by
  induction items using List.reverseRecOn with
  | nil => exact List.nodup_nil
  | append_singleton items r ih =>
    by_cases hnew : f.IsNew items r
    · rw [f.firstMatches_concat_new hnew, List.map_append, List.map_singleton,
        ← List.concat_eq_append]
      refine ih.concat ?_
      rw [f.mem_map_firstMatches]
      exact hnew.2
    · rw [f.firstMatches_concat_old hnew]
      exact ih

theorem card_matchedIds_le (items : List Record) :
    (f.matchedIds items).card ≤ items.length := by
  have hle := List.toFinset_card_le ((f.passing items).map Record.key?)
  rw [List.length_map] at hle
  exact hle.trans (List.length_filter_le _ items)

end Filter

namespace Scan

/-- One thing that happens in a scan, with the item looked at if it is a look. -/
inductive Move (start : Scan) : Scan → List Record → Scan → Prop where
  | unready (t : Scan) (e : ScanStop) (prepared : start.prepare = (t, .error e)) :
      Move start start [] t
  | ready (t : Scan) (prepared : start.prepare = (t, .ok ())) :
      Move start start [] { t with phase := .scanning }
  | fetch (s : Scan) (cursor : Option Text) (scanning : s.phase = .scanning) :
      Move start s [] (s.fetch cursor).1
  | countPage (s : Scan) (page : Page) (scanning : s.phase = .scanning) :
      Move start s [] (s.countPage page)
  | noteEmpty (s : Scan) (scanning : s.phase = .scanning) : Move start s [] s.noteEmpty
  | insert (s : Scan) (items : List Record) (scanning : s.phase = .scanning) :
      Move start s [] { s with cache := (s.cache.insertAll items).1 }
  | save (s : Scan) (scanning : s.phase = .scanning) : Move start s [] s.save
  | look (s t : Scan) (r : Record) (scanning : s.phase = .scanning)
      (wants : ¬ s.isLimitReached = true) (plain : r.id.plain.isEncodable = true)
      (looked : s.look r = (t, .ok ())) : Move start s [r] t
  | download (s : Scan) (b : Slots) (busy : s.phase = .scanning ∨ s.phase = .draining)
      (work : s.slots.Work b) : Move start s [] { s with slots := b }
  | drain (s : Scan) (scanning : s.phase = .scanning) :
      Move start s [] { s with phase := .draining }
  | done (s : Scan) (draining : s.phase = .draining) (idle : s.slots.unfinished = 0) :
      Move start s [] { s.save with phase := .done }
  | abort (s : Scan) (draining : s.phase = .draining) (idle : s.slots.unfinished = 0) :
      Move start s [] { s with phase := .aborted }

/-- What any number of moves leads to, with the items looked at on the way. -/
inductive Moves (start : Scan) : List Record → Scan → Prop where
  | none : Moves start [] start
  | more {seen looked : List Record} {s t : Scan} (before : Moves start seen s)
      (move : Move start s looked t) : Moves start (seen ++ looked) t

variable {start s t : Scan} {a : Assignment} {p q : Text} {n : Nat} {seen looked : List Record}
  {r : Record}

/-! ## What one item adds -/

/-- Looking is the same with other slots. -/
theorem look_slots (s : Scan) (b : Slots) (r : Record) :
    ∃ b', ({ s with slots := b } : Scan).look r = ({ (s.look r).1 with slots := b' }, (s.look r).2)
    := by
  unfold look take
  dsimp only
  repeat' split
  all_goals exact ⟨_, rfl⟩

/-- A download is submitted just if it is counted. -/
theorem submitted_look (s : Scan) (r : Record) :
    (s.look r).1.slots.submitted + s.tally.downloaded
      = s.slots.submitted + (s.look r).1.tally.downloaded := by
  unfold look take
  dsimp only
  repeat' split
  all_goals first
    | rfl
    | exact Nat.add_right_comm ..

theorem found_look_le (s : Scan) (r : Record) :
    (s.look r).1.tally.found ≤ s.tally.found + 1 := by
  unfold look take
  dsimp only
  repeat' split
  all_goals simp [say]

theorem phase_look (s : Scan) (r : Record) : (s.look r).1.phase = s.phase := by
  unfold look take
  dsimp only
  repeat' split
  all_goals rfl

theorem inOrder_look (h : s.slots.InOrder p q n) (hr : r.id.plain.isEncodable = true) :
    (s.look r).1.slots.InOrder p q n := by
  unfold look take
  dsimp only
  repeat' split
  · exact h
  · exact h
  · exact h.aside _ _
  · exact h
  · exact h.enqueue (ordinary_job (Record.isEncodable_fileName hr q)) rfl

/-! ## Agreement after every move -/

/-- The scan, which has been prepared, has counted what the items that it has looked at come to,
whatever its downloads have come to, and has submitted what it counts as downloaded. No job is left
where it has ended. -/
structure Balanced (a : Assignment) (p q : Text) (n : Nat) (seen : List Record) (s : Scan) :
    Prop where
  assignment : s.assignment = a
  counted : ∃ b : Slots, ({ s with slots := b } : Scan).Counted seen
  submitted : s.slots.submitted = s.tally.downloaded
  within : ∀ m, a.limit = some m → (s.tally.found : Int) ≤ m
  inOrder : s.slots.InOrder p q n
  ready : s.phase ≠ .init
  idle : s.phase = .done ∨ s.phase = .aborted → s.slots.unfinished = 0

/-- What is no look and no step of a download is not counted. -/
theorem Balanced.aside (h : s.Balanced a p q n seen) (entries : Entries)
    (replies : List ListingReply) (pages : Nat) (userEmpty : Bool) (disk : Disk) (log : Log)
    {phase : Phase} (hready : phase ≠ .init)
    (hidle : phase = .done ∨ phase = .aborted → s.slots.unfinished = 0) :
    Balanced a p q n seen { s with
      cache := { s.cache with entries }, replies, pages, phase
      tally := { s.tally with userEmpty }
      slots := { s.slots with disk, log } } := by
  obtain ⟨b, hb⟩ := h.counted
  exact ⟨h.assignment, ⟨b, { hb with }⟩, h.submitted, h.within, h.inOrder.aside disk log, hready,
    hidle⟩

theorem Balanced.look (h : s.Balanced a p q n seen) (hscanning : s.phase = .scanning)
    (hwants : ¬ s.isLimitReached = true) (hr : r.id.plain.isEncodable = true)
    (hlook : s.look r = (t, .ok ())) : t.Balanced a p q n (seen ++ [r]) := by
  obtain ⟨b, hb⟩ := h.counted
  obtain ⟨b', hsame⟩ := look_slots s b r
  have hsubmitted := submitted_look s r
  have hfound := found_look_le s r
  have hphase := phase_look s r
  have hinOrder := inOrder_look h.inOrder hr
  have hassign := (steady_look s r).assignment
  rw [hlook] at hsame hsubmitted hfound hphase hinOrder hassign
  refine ⟨hassign.trans h.assignment, ⟨b', hb.look_ok hsame⟩, ?_, ?_, hinOrder, ?_, ?_⟩
  · rw [h.submitted, Nat.add_comm] at hsubmitted
    exact Nat.add_left_cancel hsubmitted
  · intro m hm
    -- There are fewer matches than asked for, and an item is at most one match.
    have hfew : ¬ m ≤ (s.tally.found : Int) := by
      intro hle
      exact hwants (by simp [isLimitReached, h.assignment, hm, hle])
    dsimp only at hfound
    omega
  · rw [hphase, hscanning]
    decide
  · rw [hphase, hscanning]
    simp

theorem Balanced.download {b : Slots} (h : s.Balanced a p q n seen)
    (hbusy : s.phase = .scanning ∨ s.phase = .draining) (hwork : s.slots.Work b) :
    Balanced a p q n seen { s with slots := b } := by
  obtain ⟨hinOrder, hsubmitted⟩ := h.inOrder.work hwork
  refine ⟨h.assignment, h.counted, hsubmitted.trans h.submitted, h.within, hinOrder, h.ready, ?_⟩
  rintro (hend | hend) <;> rcases hbusy with hbusy | hbusy <;> cases hend.symm.trans hbusy

/-- By cases on the move: most are no look and no step of a download. -/
theorem Balanced.move (h : s.Balanced a p q n seen) (hstart : start.phase = .init)
    (hmove : Move start s looked t) : t.Balanced a p q n (seen ++ looked) := by
  cases hmove with
  | unready | ready => exact absurd hstart h.ready
  | look s t r scanning wants plain looked => exact h.look scanning wants plain looked
  | download s b busy work =>
    rw [List.append_nil]
    exact h.download busy work
  | fetch | countPage | noteEmpty | insert | save =>
    rw [List.append_nil]
    exact h.aside _ _ _ _ _ _ h.ready h.idle
  | drain s scanning =>
    rw [List.append_nil]
    exact h.aside _ _ _ _ _ _ (by simp) (by simp)
  | done s draining idle | abort s draining idle =>
    rw [List.append_nil]
    exact h.aside _ _ _ _ _ _ (by simp) fun _ => idle

/-! ## All moves -/

/-- Whether a scan can be prepared or not, nothing has been counted then. -/
theorem prepare_leaves (s : Scan) : ∃ cache disk log phase,
    (s.prepare).1 = { s with cache, phase, slots := { s.slots with disk, log } }
      ∧ (phase = s.phase ∨ phase = .aborted) := by
  unfold prepare
  split
  · exact ⟨_, _, _, _, rfl, .inl rfl⟩
  · dsimp only
    split
    · exact ⟨_, _, _, _, rfl, .inl rfl⟩
    · exact ⟨_, _, _, _, rfl, .inl rfl⟩
    · split
      · exact ⟨_, _, _, _, rfl, .inl rfl⟩
      · split
        · exact ⟨_, _, _, _, rfl, .inr rfl⟩
        · split <;> exact ⟨_, _, _, _, rfl, .inl rfl⟩

theorem phase_of_unready {e : ScanStop} (h : start.prepare = (t, .error e))
    (hstart : start.phase = .init) : t.phase = .init ∨ t.phase = .aborted := by
  obtain ⟨cache, disk, log, phase, hleaves, hphase⟩ := prepare_leaves start
  rw [h] at hleaves
  rw [show t.phase = phase from congrArg Scan.phase hleaves, ← hstart]
  exact hphase

/-- Phases come in their order. -/
theorem Move.phase (h : Move start s looked t) (hstart : start.phase = .init) :
    t.phase = s.phase ∨ s.phase.Leads t.phase := by
  cases h with
  | unready t e prepared =>
    rcases phase_of_unready prepared hstart with hphase | hphase
    · exact .inl (hphase.trans hstart.symm)
    · rw [hstart, hphase]
      exact .inr .giveUp
  | ready t prepared =>
    rw [hstart]
    exact .inr .scan
  | fetch | countPage | noteEmpty | insert | save | download => exact .inl rfl
  | look s t r scanning wants plain looked =>
    have hphase := phase_look s r
    rw [looked] at hphase
    exact .inl hphase
  | drain s scanning =>
    rw [scanning]
    exact .inr .drain
  | done s draining idle =>
    rw [draining]
    exact .inr .finish
  | abort s draining idle =>
    rw [draining]
    exact .inr .abort

/-- The scan has not been prepared yet, or cannot be. -/
def Untouched (start : Scan) (seen : List Record) (t : Scan) : Prop :=
  seen = [] ∧ (t = start ∨ ∃ e, start.prepare = (t, .error e))

theorem Untouched.phase (h : Untouched start seen t) (hstart : start.phase = .init) :
    t.phase = .init ∨ t.phase = .aborted := by
  obtain ⟨-, rfl | ⟨e, he⟩⟩ := h
  · exact .inl hstart
  · exact phase_of_unready he hstart

/-- By induction on the moves: a scan that has been prepared keeps its counts. -/
theorem Moves.untouched_or_balanced (h : Moves start seen t) (hstart : start.phase = .init)
    (hready : ∀ s₀, start.prepare = (s₀, .ok ()) →
      Balanced a p q n [] { s₀ with phase := .scanning }) :
    Untouched start seen t ∨ t.Balanced a p q n seen := by
  induction h with
  | none => exact .inl ⟨rfl, .inl rfl⟩
  | @more seen looked s t before move ih =>
    rcases ih with hs | hs
    · have hphase := hs.phase hstart
      have hnone : seen = [] := hs.1
      subst hnone
      have hbusy : ∀ phase, phase = .scanning ∨ phase = .draining → s.phase ≠ phase := by
        rintro phase (rfl | rfl) hs <;> rcases hphase with hphase | hphase <;>
          cases hs.symm.trans hphase
      cases move with
      | unready t e prepared => exact .inl ⟨rfl, .inr ⟨e, prepared⟩⟩
      | ready t prepared => exact .inr (hready t prepared)
      | fetch _ _ scanning | countPage _ _ scanning | noteEmpty _ scanning | insert _ _ scanning
      | save _ scanning | look _ _ _ scanning | drain _ scanning =>
        exact absurd scanning (hbusy _ (.inl rfl))
      | done _ draining | abort _ draining => exact absurd draining (hbusy _ (.inr rfl))
      | download _ _ busy => exact absurd rfl (hbusy _ busy)
    · exact .inr (hs.move hstart move)

/-! ## What the counts say -/

/-- The counts of a scan for so many matches that has looked at these items. -/
structure Accounted (limit : Int) (f : Filter) (seen : List Record) (s : Scan) : Prop where
  scanned : s.tally.scanned = seen.length
  within : (s.tally.found : Int) ≤ limit
  found_le : s.tally.found ≤ s.tally.scanned
  shares : s.tally.downloaded + s.tally.skipped = s.tally.found
  distinct : s.tally.found = (f.matchedIds seen).card
  matched : s.matched.Nodup ∧ s.matched.length = s.tally.found
  submitted : s.slots.submitted = s.tally.downloaded
  failures : s.failures = s.slots.ended.countP (·.2.isFailed)
  failures_le : s.failures ≤ s.tally.downloaded

/-- All downloads have ended, and whoever counts failures has counted the same. -/
structure Settled (s : Scan) : Prop where
  waiting : s.slots.waiting = []
  inFlight : s.slots.inFlight = 0
  completed : s.slots.completed = s.slots.submitted
  failures : s.failures = s.slots.failed

theorem Balanced.accounted {limit : Int} (h : s.Balanced a p q n seen)
    (hlimit : a.limit = some limit) : s.Accounted limit a.filter seen := by
  obtain ⟨b, hb⟩ := h.counted
  have hfound : s.tally.found = (a.filter.matchedIds seen).card := h.assignment ▸ hb.found
  have hmatched : s.matched.map some = (a.filter.firstMatches seen).map Record.key? :=
    h.assignment ▸ hb.matched
  have hfailures : s.failures = s.slots.ended.countP (·.2.isFailed) := h.inOrder.countP_told
  refine ⟨hb.scanned, h.within limit hlimit, ?_, hb.skipped, hfound, ⟨?_, ?_⟩, h.submitted,
    hfailures, ?_⟩
  · rw [hfound, show s.tally.scanned = seen.length from hb.scanned]
    exact a.filter.card_matchedIds_le seen
  · have hnodup := a.filter.nodup_keys_firstMatches seen
    rw [← hmatched] at hnodup
    exact hnodup.of_map some
  · have hlength := congrArg List.length hmatched
    rwa [List.length_map, List.length_map, Filter.length_firstMatches, ← hfound] at hlength
  · rw [hfailures, ← h.submitted]
    exact h.inOrder.failed_le

theorem Balanced.settled (h : s.Balanced a p q n seen)
    (hend : s.phase = .done ∨ s.phase = .aborted) : s.Settled := by
  have hidle := h.idle hend
  obtain ⟨hwaiting, hrunning⟩ := Nat.add_eq_zero_iff.mp hidle
  refine ⟨List.eq_nil_of_length_eq_zero hwaiting, hrunning, h.inOrder.completed_of_idle hidle, ?_⟩
  rw [h.inOrder.balanced.failed]
  exact h.inOrder.countP_told

/-! ## Before the first item -/

section Fresh

variable {cache : Cache} {quality : Text} {concurrency : Int} {replies : List ListingReply}
  {images : ImageServer} {disk : Disk} {s₀ : Scan}

/-- A scan that is ready for its first item has counted nothing, and its books are open. -/
theorem balanced_ready (hlimit : ∀ m, a.limit = some m → 0 ≤ m)
    (himages : ∀ i ∈ images, i.2.IsOrdinary)
    (h : (Scan.start a cache quality concurrency replies images disk).prepare = (s₀, .ok ())) :
    Balanced a cache.folder quality (Slots.capacityFor concurrency) []
      { s₀ with phase := .scanning } := by
  have hready := ready_of_prepare h
  have hfolder := checkPath_of_prepare h
  obtain ⟨disk₀, log₀, cache₀, files₀, _, _, _, _, rfl⟩ := prepare_eq_ok h
  have hopen : Slots.InOrder cache.folder quality (Slots.capacityFor concurrency)
      (Slots.empty cache.folder quality a.hasBars concurrency (some onEnd) images disk) :=
    Slots.inOrder_empty hfolder himages
  exact ⟨rfl, ⟨_, hready.counted⟩, rfl, hlimit, hopen.aside _ _, by simp, by simp⟩

theorem Untouched.exists_eq
    (h : Untouched (Scan.start a cache quality concurrency replies images disk) seen t) :
    seen = [] ∧ ∃ cache' disk' log phase,
      t = { Scan.start a cache quality concurrency replies images disk with
        cache := cache', phase
        slots :=
          { Slots.empty cache.folder quality a.hasBars concurrency (some onEnd) images disk with
            disk := disk', log } } := by
  obtain ⟨hseen, rfl | ⟨e, he⟩⟩ := h
  · exact ⟨hseen, _, _, _, _, rfl⟩
  · obtain ⟨cache', disk', log, phase, hleaves, -⟩ :=
      prepare_leaves (Scan.start a cache quality concurrency replies images disk)
    rw [he] at hleaves
    exact ⟨hseen, cache', disk', log, phase, hleaves⟩

theorem Untouched.accounted {limit : Int} (hlimit : 0 ≤ limit)
    (h : Untouched (Scan.start a cache quality concurrency replies images disk) seen t) :
    t.Accounted limit a.filter seen ∧ t.Settled := by
  obtain ⟨rfl, cache', disk', log, phase, rfl⟩ := h.exists_eq
  exact ⟨⟨rfl, hlimit, Nat.le_refl 0, rfl, rfl, ⟨List.nodup_nil, rfl⟩, rfl, rfl, Nat.le_refl 0⟩,
    rfl, rfl, rfl, rfl⟩

end Fresh

end Scan

end GalleryScan
