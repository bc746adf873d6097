import GalleryScan.Proofs.Cache.Sound
import GalleryScan.Proofs.Download.Accounting
import GalleryScan.Proofs.Scan.Course
import GalleryScan.Proofs.Scan.Selection

/-!
# Scans that their downloads do not end

Where no answer of the image server is a wish to stop the program and the files of the matches have
names with a form in bytes, every download runs to its end, and the scan goes on behind them:

> `s.slots.Balanced p q n true 0 → ∃ s', s.drain = (s', .ok ())`

The books of `Proofs/Download/Accounting` are open from the start of the scan, and looking at items
keeps them.
-/

set_option autoImplicit false

namespace GalleryScan

namespace Scan

variable {s s' s₀ t : Scan} {p q : Text} {n : Nat} {cursor c : Option Text} {page : Page}
  {pages : List Page}

theorem ordinary_job {r : Record} (h : (r.target q).fileName.isEncodable = true) :
    ∀ k ∈ r.job.family true, k.IsOrdinary q := by
  intro k hk
  rw [Job.family_eq] at hk
  obtain rfl := List.mem_singleton.mp hk
  exact ⟨h, fun a ha => by cases ha⟩

theorem balanced_look {r : Record} (h : s.slots.Balanced p q n true 0)
    (hr : (r.target q).fileName.isEncodable = true) :
    (s.look r).1.slots.Balanced p q n true 0 := by
  rcases look_cases s r with ⟨result, hlook⟩ | ⟨t, hlook⟩ | ⟨k, hlook⟩
  · rw [hlook]
    exact h
  · rw [hlook]
    exact { h with }
  · rw [hlook, take]
    dsimp only
    split
    · exact h
    · exact h.enqueue (ordinary_job hr)

theorem balanced_lookAll {items : List Record} (h : s.slots.Balanced p q n true 0)
    (hitems : ∀ r ∈ items, (r.target q).fileName.isEncodable = true) :
    (s.lookAll items).1.slots.Balanced p q n true 0 :=
  lookAll_keeps (P := fun s => s.slots.Balanced p q n true 0)
    (fun _ r hr hs => balanced_look hs (hitems r hr)) h

theorem TakesIn.balanced (h : TakesIn s cursor page t)
    (hs : s.slots.Balanced p q n true 0)
    (hnames : ∀ r ∈ page.items, (r.target q).fileName.isEncodable = true) :
    t.slots.Balanced p q n true 0 := by
  obtain ⟨s₁, hslots, hlook⟩ := h.exists_save
  have harrived : (s.arrived cursor page).slots.Balanced p q n true 0 := { hs with }
  rw [← hslots] at harrived
  have hsaved : s₁.save.slots.Balanced p q n true 0 := { harrived with }
  have ht := balanced_lookAll hsaved hnames
  rwa [hlook] at ht

theorem Passes.balanced (h : Passes s cursor pages t c)
    (hs : s.slots.Balanced p q n true 0)
    (hnames : ∀ r ∈ itemsOf pages, (r.target q).fileName.isEncodable = true) :
    t.slots.Balanced p q n true 0 := by
  induction h with
  | here s cursor => exact hs
  | @on s s₁ t cursor c page pages first more rest ih =>
    rw [← List.singleton_append, itemsOf_append, itemsOf_singleton] at hnames
    exact ih (first.balanced hs fun r hr => hnames r (List.mem_append_left _ hr))
      fun r hr => hnames r (List.mem_append_right _ hr)

theorem balanced_prepare {a : Assignment} {fresh : Cache} {concurrency : Int}
    {replies : List ListingReply} {images : ImageServer} {disk : Disk}
    (hfolder : Disk.checkPath fresh.folder = .ok ()) (himages : ∀ i ∈ images, i.2.IsOrdinary)
    (h : (start a fresh q concurrency replies images disk).prepare = (s₀, .ok ())) :
    s₀.slots.Balanced fresh.folder q (Slots.capacityFor concurrency) true 0 := by
  obtain ⟨disk₀, log₀, cache₀, files₀, _, _, _, _, rfl⟩ := prepare_eq_ok h
  have hempty : Slots.Balanced fresh.folder q (Slots.capacityFor concurrency)
      (some onEnd).isSome 0
      (Slots.empty fresh.folder q a.hasBars concurrency (some onEnd) images disk) :=
    Slots.balanced_empty _ hfolder himages
  exact { hempty with }

/-- A folder whose files have been looked up goes by a path that has a form in bytes. -/
theorem checkPath_of_indexFiles {c c' : Cache} {d : Disk} (h : c.indexFiles d = .ok c') :
    Disk.checkPath c.folder = .ok () := by
  cases hcheck : Disk.checkPath c.folder with
  | ok _ => rfl
  | error fault =>
    have hlist : d.list c.folder = .error fault := by
      rw [Disk.list, Disk.find, hcheck]
      rfl
    rw [Cache.indexFiles, hlist] at h
    unfold Disk.checkPath at hcheck
    split at hcheck
    · cases hcheck
      cases h
    · split at hcheck
      · cases hcheck
        cases h
      · cases hcheck

theorem checkPath_of_prepare {a : Assignment} {fresh : Cache} {quality : Text}
    {concurrency : Int} {replies : List ListingReply} {images : ImageServer} {disk : Disk}
    (h : (start a fresh quality concurrency replies images disk).prepare = (s₀, .ok ())) :
    Disk.checkPath fresh.folder = .ok () := by
  obtain ⟨disk₀, log, cache, files, _, hload, hindex, _⟩ := prepare_eq_ok h
  have hfolder := Cache.folder_load fresh disk₀
  rw [show fresh.load disk₀ = (log, cache, .ok ()) from hload] at hfolder
  rw [← hfolder]
  exact checkPath_of_indexFiles hindex

theorem drain_of_balanced (h : s.slots.Balanced p q n true 0)
    (hnone : s.assignment.hindrance = none) : ∃ s', s.drain = (s', .ok ()) := by
  have hturns := Slots.turns_drain s.slots
  rw [show { s.slots with stop := none } = s.slots by rw [← h.stop]] at hturns
  have hstop : s.slots.drain.stop = none := (h.turns hturns).stop
  have hfree : s.hindrance? = none := by
    rw [hindrance?, hnone, ite_self]
  rw [drain, hfree]
  dsimp only
  rw [hstop]
  exact ⟨_, rfl⟩

theorem slots_of_drain (h : s.drain = (s', .ok ())) : s'.slots = s.slots.drain := by
  unfold drain at h
  split at h
  · cases h
  · dsimp only at h
    split at h <;> cases h
    rfl

theorem stop_of_drain (h : s.drain = (s', .ok ())) : s'.slots.stop = none := by
  unfold drain at h
  split at h
  · cases h
  · dsimp only at h
    split at h
    · rename_i hstop
      cases h
      exact hstop
    · cases h

end Scan

end GalleryScan
