import GalleryScan.Proofs.Download.Site
import Mathlib.Data.Multiset.Bind
import Mathlib.Tactic.Abel

/-!
# Jobs in order

At any time each job of a run has ended, is in a slot, waits or is still to be submitted, and no job
is in two of these places. The disk is the one at the start but for the files of the jobs that have
begun:

> `s.Orderly w jobs later hand`

While a job is being moved from one place to another it is in hand. Whatever is done with the slots,
it is made of steps that take a job in hand, let its download make a step, and put it down again;
each of them keeps this order.
-/

set_option autoImplicit false

namespace GalleryScan

namespace Slots

/-- The jobs that are done with when one has ended: with one that was cancelled all that would have
come after it. -/
def gone (hears : Bool) (x : Job × Outcome) : List Job :=
  match x.2 with
  | .cancelled => x.1.family hears
  | _ => [x.1]

/-- The jobs that a job's end brings about. -/
def heard (hears : Bool) (j : Job) : Outcome → List Job
  | .cancelled => []
  | _ => if hears then j.next else []

theorem mem_gone (hears : Bool) (x : Job × Outcome) : x.1 ∈ gone hears x := by
  unfold gone
  split
  · exact Job.mem_family_self hears x.1
  · exact List.mem_singleton_self _

theorem gone_append_heard (hears : Bool) (j : Job) (o : Outcome) :
    gone hears (j, o) ++ Job.families hears (heard hears j o) = j.family hears := by
  cases o with
  | cancelled => exact List.append_nil _
  | saved => exact (Job.family_eq hears j).symm
  | failed e => exact (Job.family_eq hears j).symm
  | stopped stop => exact (Job.family_eq hears j).symm

/-- All the jobs, by where they are. -/
def accounted (s : Slots) (hears : Bool) (hand later : List Job) : Multiset Job :=
  ↑(s.ended.flatMap (gone hears)) + ↑(Job.families hears (s.running.map Running.job))
    + ↑(Job.families hears hand) + ↑(Job.families hears s.waiting) + ↑(Job.families hears later)

/-- Every job is in one place, and the disk is what the jobs that have begun have made of it. -/
structure Orderly (w : Site) (jobs later hand : List Job) (s : Slots) : Prop where
  folder : s.folder = w.folder
  quality : s.quality = w.quality
  hasBars : s.hasBars = w.hasBars
  hears : s.listener.isSome = w.hears
  stop : s.stop = none
  server : ∃ known, s.server = w.server ++ known ∧ (∀ a ∈ known, ∃ k ∈ jobs, k.reply? = some a)
    ∧ ∀ j ∈ s.waiting, ∀ a, j.reply? = some a → a ∈ known
  here : s.disk.here = w.disk.here
  kept : ∀ S e, w.disk.entry? S = some e → s.disk.entry? S = some e
  untouched : ∀ S, (∀ j, j ∈ hand ∨ j ∈ s.running.map Running.job ∨ (j, .saved) ∈ s.ended →
    ¬ w.Owns j S) → s.disk.entry? S = w.disk.entry? S
  running : ∀ r ∈ s.running, w.Runs s.disk r
  ended : ∀ x ∈ s.ended, w.Ended s.disk x.1 x.2
  account : s.accounted w.hears hand later = ↑jobs

variable {w : Site} {jobs later hand : List Job} {s : Slots} {j : Job}

/-! ## Consequences -/

theorem Orderly.isFolder (h : s.Orderly w jobs later hand) (hs : w.Suits jobs) :
    s.disk.IsFolder w.folder w.route := hs.folder.mono h.here fun S hS => h.kept S _ hS

theorem Orderly.mem_iff (h : s.Orderly w jobs later hand) : j ∈ jobs ↔
    j ∈ s.ended.flatMap (gone w.hears) ∨ j ∈ Job.families w.hears (s.running.map Running.job)
      ∨ j ∈ Job.families w.hears hand ∨ j ∈ Job.families w.hears s.waiting
      ∨ j ∈ Job.families w.hears later := by
  rw [← Multiset.mem_coe, ← h.account, accounted]
  simp only [Multiset.mem_add, Multiset.mem_coe, or_assoc]

theorem Orderly.mem_of_ended (h : s.Orderly w jobs later hand) {x : Job × Outcome}
    (hx : x ∈ s.ended) : x.1 ∈ jobs :=
  h.mem_iff.mpr (.inl (List.mem_flatMap.mpr ⟨x, hx, mem_gone _ x⟩))

theorem Orderly.mem_of_running (h : s.Orderly w jobs later hand) {r : Running}
    (hr : r ∈ s.running) : r.job ∈ jobs :=
  h.mem_iff.mpr (.inr (.inl (Job.mem_families_of_mem (List.mem_map_of_mem hr))))

theorem Orderly.mem_of_hand (h : s.Orderly w jobs later hand) (hj : j ∈ hand) : j ∈ jobs :=
  h.mem_iff.mpr (.inr (.inr (.inl (Job.mem_families_of_mem hj))))

theorem Orderly.mem_of_later (h : s.Orderly w jobs later hand) (hj : j ∈ later) : j ∈ jobs :=
  h.mem_iff.mpr (.inr (.inr (.inr (.inr (Job.mem_families_of_mem hj)))))

/-- Jobs in two different places have different names. -/
theorem ne_of_nodup {α β : Type} {f : α → β} {A B C : Multiset α} {F : List α}
    (hF : (F.map f).Nodup) (h : A + B + C = ↑F) {x y : α} (hx : x ∈ A) (hy : y ∈ B) :
    f x ≠ f y := by
  have hnodup : (Multiset.map f (A + B + C)).Nodup := by
    rw [h, Multiset.map_coe, Multiset.coe_nodup]
    exact hF
  rw [Multiset.map_add, Multiset.map_add] at hnodup
  have hAB := (Multiset.nodup_add.mp hnodup).1
  have hdisjoint := (Multiset.nodup_add.mp hAB).2.2
  intro hxy
  exact Multiset.disjoint_left.mp hdisjoint (Multiset.mem_map_of_mem f hx)
    (hxy ▸ Multiset.mem_map_of_mem f hy)

/-- The job in hand has a name that no job has which has begun. -/
theorem Orderly.name_ne (h : s.Orderly w jobs later hand) (hs : w.Suits jobs) (hj : j ∈ hand)
    {k : Job} (hk : k ∈ s.ended.flatMap (gone w.hears)
      ∨ k ∈ Job.families w.hears (s.running.map Running.job)) : w.name k ≠ w.name j := by
  have haccount := h.account
  rw [accounted] at haccount
  apply ne_of_nodup (A := ↑(s.ended.flatMap (gone w.hears))
      + ↑(Job.families w.hears (s.running.map Running.job)))
    (B := ↑(Job.families w.hears hand))
    (C := ↑(Job.families w.hears s.waiting) + ↑(Job.families w.hears later)) hs.distinct
  · rw [← haccount]
    abel
  · exact Multiset.mem_add.mpr hk
  · exact Job.mem_families_of_mem hj

theorem Orderly.ne_of_ended (h : s.Orderly w jobs later hand) (hs : w.Suits jobs) (hj : j ∈ hand)
    {x : Job × Outcome} (hx : x ∈ s.ended) : w.name x.1 ≠ w.name j :=
  h.name_ne hs hj (.inl (List.mem_flatMap.mpr ⟨x, hx, mem_gone _ x⟩))

theorem Orderly.ne_of_running (h : s.Orderly w jobs later hand) (hs : w.Suits jobs) (hj : j ∈ hand)
    {r : Running} (hr : r ∈ s.running) : w.name r.job ≠ w.name j :=
  h.name_ne hs hj (.inr (Job.mem_families_of_mem (List.mem_map_of_mem hr)))

/-- What is counted, told and logged is of no matter for the order. -/
theorem Orderly.recounted (h : s.Orderly w jobs later hand) (submitted completed failed : Nat)
    (told : List (Json × Option DownloadError)) (log : Log) :
    Orderly w jobs later hand { s with submitted, completed, failed, told, log } :=
  ⟨h.folder, h.quality, h.hasBars, h.hears, h.stop, h.server, h.here, h.kept, h.untouched,
    h.running, h.ended, h.account⟩

/-! ## Taking a job in hand -/

theorem Orderly.take_waiting (h : s.Orderly w jobs later []) {front back : List Job}
    (hw : s.waiting = front ++ j :: back) :
    Orderly w jobs later [j] { s with waiting := front ++ back } := by
  refine ⟨h.folder, h.quality, h.hasBars, h.hears, h.stop, ?_, h.here, h.kept, ?_, h.running,
    h.ended, ?_⟩
  · obtain ⟨known, hserver, hknown, hown⟩ := h.server
    refine ⟨known, hserver, hknown, ?_⟩
    intro k hk
    apply hown k
    rw [hw, List.mem_append, List.mem_cons]
    rcases List.mem_append.mp hk with hk | hk
    · exact .inl hk
    · exact .inr (.inr hk)
  · intro S hS
    apply h.untouched S
    intro k hk
    rcases hk with hk | hk
    · cases hk
    · exact hS k (.inr hk)
  · have haccount := h.account
    rw [accounted, hw] at haccount
    rw [← haccount, accounted]
    simp only [Job.families_append, Job.families, List.append_nil, ← Multiset.coe_add,
      Multiset.coe_nil]
    abel

/-- A job that waits has touched nothing. -/
theorem Orderly.at?_of_waiting (h : s.Orderly w jobs later []) (hs : w.Suits jobs)
    {front back : List Job} (hw : s.waiting = front ++ j :: back) :
    s.disk.at? (w.path j) = w.disk.at? (w.path j) := by
  have htaken := h.take_waiting hw
  have hj := htaken.mem_of_hand (List.mem_singleton_self j)
  apply hs.at?_congr hs.folder (h.isFolder hs) hj
  intro S hS
  apply h.untouched S
  intro k hk
  -- Whoever has touched the entry has begun, and so has another name.
  rcases hk with hk | hk | hk
  · cases hk
  · obtain ⟨r, hr, rfl⟩ := List.mem_map.mp hk
    have hne := htaken.ne_of_running hs (List.mem_singleton_self j) hr
    exact hs.not_owns (h.mem_of_running hr) hj hne.symm hS
  · have hne := htaken.ne_of_ended hs (List.mem_singleton_self j) hk
    exact hs.not_owns (h.mem_of_ended hk) hj hne.symm hS

theorem Orderly.take_running (h : s.Orderly w jobs later []) {before after : List Running}
    {r : Running} (hr : s.running = before ++ r :: after) :
    Orderly w jobs later [r.job] { s with running := before ++ after }
      ∧ w.Runs s.disk r := by
  have hmem : ∀ q ∈ before ++ after, q ∈ s.running := by
    intro q hq
    rw [hr, List.mem_append, List.mem_cons]
    rcases List.mem_append.mp hq with hq | hq
    · exact .inl hq
    · exact .inr (.inr hq)
  refine ⟨⟨h.folder, h.quality, h.hasBars, h.hears, h.stop, h.server, h.here, h.kept, ?_, ?_,
    h.ended, ?_⟩, ?_⟩
  · intro S hS
    apply h.untouched S
    intro k hk
    apply hS k
    rcases hk with hk | hk | hk
    · cases hk
    · -- What the job has touched is now the business of the hand.
      rw [hr, List.map_append, List.map_cons, List.mem_append, List.mem_cons] at hk
      rcases hk with hk | rfl | hk
      · exact .inr (.inl (by rw [List.map_append]; exact List.mem_append_left _ hk))
      · exact .inl (List.mem_singleton_self _)
      · exact .inr (.inl (by rw [List.map_append]; exact List.mem_append_right _ hk))
    · exact .inr (.inr hk)
  · intro q hq
    exact h.running q (hmem q hq)
  · have haccount := h.account
    rw [accounted, hr] at haccount
    rw [← haccount, accounted]
    simp only [List.map_append, List.map_cons, Job.families_append, Job.families, List.append_nil,
      ← Multiset.coe_add, Multiset.coe_nil]
    abel
  · exact h.running r (by rw [hr]; exact List.mem_append_right _ (List.mem_cons_self ..))

/-! ## A step of the job in hand -/

/-- A step of a job's download leaves initial entries alone and ends where it may. -/
structure Moves (w : Site) (d : Disk) (j : Job) (step : Step) : Prop where
  frame : Disk.Frame w.folder (w.name j) w.route d step.disk
  kept : ∀ S e, w.Owns j S → w.disk.entry? S = some e → step.disk.entry? S = some e
  standing : ∀ gate, step.progress = .standing gate → w.disk.at? (w.path j) = none
    ∧ (Progress.standing gate).Right step.disk w.folder (w.name j) w.route (w.file? j)
  ended : ∀ o, step.progress = .ended o → w.Ended step.disk j o

/-- The steps of a download that found no file of its name. -/
theorem moves_of_advances {d : Disk} {step : Step} (hs : w.Suits jobs) (hj : j ∈ jobs)
    (hfresh : w.disk.at? (w.path j) = none)
    (h : step.Advances d w.folder (w.name j) w.route (w.file? j)) : Moves w d j step := by
  refine ⟨h.frame, ?_, ?_, ?_⟩
  · intro S e hS hentry
    rw [hs.at?_of_owns hs.folder hj hS, hentry] at hfresh
    cases hfresh
  · intro gate hgate
    exact ⟨hfresh, hgate ▸ h.right⟩
  · intro o ho
    have hright := h.right
    rw [ho] at hright
    cases hright with
    | saved content whole there => exact .saved content whole there
    | failed e lost free => exact .failed e hfresh lost free
    | cancelled free => exact .cancelled (free.trans hfresh.symm)

/-- The one step of a download that found a file of its name. -/
theorem moves_of_present {d : Disk} (hkept : ∀ S e, w.disk.entry? S = some e → d.entry? S = some e)
    (hthere : w.disk.at? (w.path j) ≠ none) (log : Log) :
    Moves w d j ⟨log, d, .ended .saved⟩ := by
  refine ⟨.refl _ _ _ _, fun S e _ => hkept S e, ?_, ?_⟩
  · intro gate hgate
    cases hgate
  · intro o ho
    cases ho
    exact .present hthere

theorem Orderly.moved (h : s.Orderly w jobs later [j]) (hs : w.Suits jobs) {step : Step}
    (hstep : Moves w s.disk j step) :
    Orderly w jobs later [j] { s with log := s.log ++ step.log, disk := step.disk } := by
  have hj := h.mem_of_hand (List.mem_singleton_self j)
  have hkept : ∀ S e, w.disk.entry? S = some e → step.disk.entry? S = some e := by
    intro S e hentry
    by_cases hS : w.Owns j S
    · exact hstep.kept S e hS hentry
    · rw [hstep.frame.other S hS]
      exact h.kept S e hentry
  have hhere : step.disk.here = w.disk.here := hstep.frame.here.trans h.here
  have hd' : step.disk.IsFolder w.folder w.route := hs.folder.mono hhere fun S hS => hkept S _ hS
  refine ⟨h.folder, h.quality, h.hasBars, h.hears, h.stop, h.server, hhere, hkept, ?_, ?_, ?_,
    h.account⟩
  · intro S hS
    exact (hstep.frame.other S (hS j (.inl (List.mem_singleton_self j)))).trans (h.untouched S hS)
  · intro r hr
    have hne := h.ne_of_running hs (List.mem_singleton_self j) hr
    exact hs.runs_frame (h.isFolder hs) hd' hstep.frame hj (h.mem_of_running hr) hne
      (h.running r hr)
  · intro x hx
    have hne := h.ne_of_ended hs (List.mem_singleton_self j) hx
    exact hs.ended_frame (h.isFolder hs) hd' hstep.frame hj (h.mem_of_ended hx) hne (h.ended x hx)

/-! ## Putting the job down -/

/-- The job stands at a gate, in a slot. -/
theorem Orderly.stand (h : s.Orderly w jobs later [j]) {before after : List Running}
    (hrunning : s.running = before ++ after) {r : Running} (hr : r.job = j)
    (hruns : w.Runs s.disk r) :
    Orderly w jobs later [] { s with running := before ++ r :: after } := by
  have hmem : ∀ q, q ∈ before ++ r :: after → q = r ∨ q ∈ s.running := by
    intro q hq
    rw [hrunning, List.mem_append]
    rcases List.mem_append.mp hq with hq | hq
    · exact .inr (.inl hq)
    · rcases List.mem_cons.mp hq with rfl | hq
      · exact .inl rfl
      · exact .inr (.inr hq)
  refine ⟨h.folder, h.quality, h.hasBars, h.hears, h.stop, h.server, h.here, h.kept, ?_, ?_,
    h.ended, ?_⟩
  · intro S hS
    apply h.untouched S
    intro k hk
    apply hS k
    rcases hk with hk | hk | hk
    · obtain rfl := List.mem_singleton.mp hk
      refine .inr (.inl ?_)
      rw [← hr]
      exact List.mem_map_of_mem (List.mem_append_right _ (List.mem_cons_self ..))
    · rw [hrunning, List.map_append, List.mem_append] at hk
      refine .inr (.inl ?_)
      rw [List.map_append, List.map_cons, List.mem_append, List.mem_cons]
      rcases hk with hk | hk
      · exact .inl hk
      · exact .inr (.inr hk)
    · exact .inr (.inr hk)
  · intro q hq
    rcases hmem q hq with rfl | hq
    · exact hruns
    · exact h.running q hq
  · have haccount := h.account
    rw [accounted, hrunning] at haccount
    rw [← haccount, accounted]
    simp only [List.map_append, List.map_cons, hr, Job.families_append, Job.families,
      List.append_nil, ← Multiset.coe_add, Multiset.coe_nil]
    abel

/-- The job has ended. What it brings about is still to be submitted. -/
theorem Orderly.leave (h : s.Orderly w jobs later [j]) (hs : w.Suits jobs) {o : Outcome}
    (hended : w.Ended s.disk j o) :
    Orderly w jobs (heard w.hears j o ++ later) [] { s with ended := s.ended ++ [(j, o)] } := by
  have hj := h.mem_of_hand (List.mem_singleton_self j)
  refine ⟨h.folder, h.quality, h.hasBars, h.hears, h.stop, h.server, h.here, h.kept, ?_, h.running,
    ?_, ?_⟩
  · intro S hS
    by_cases hown : w.Owns j S ∧ o ≠ .saved
    · -- Its own file is what it was at first, unless it was saved.
      obtain ⟨hS, ho⟩ := hown
      rw [← hs.at?_of_owns (h.isFolder hs) hj hS, ← hs.at?_of_owns hs.folder hj hS]
      cases hended with
      | present there => exact absurd rfl ho
      | saved content whole there => exact absurd rfl ho
      | failed e fresh lost free => exact free.trans fresh.symm
      | cancelled same => exact same
    · apply h.untouched S
      intro k hk hkS
      rcases hk with hk | hk | hk
      · obtain rfl := List.mem_singleton.mp hk
        have ho : o = .saved := Classical.not_not.mp fun ho => hown ⟨hkS, ho⟩
        refine hS k (.inr (.inr ?_)) hkS
        rw [ho]
        exact List.mem_append_right _ (List.mem_singleton_self _)
      · exact hS k (.inr (.inl hk)) hkS
      · exact hS k (.inr (.inr (List.mem_append_left _ hk))) hkS
  · intro x hx
    rcases List.mem_append.mp hx with hx | hx
    · exact h.ended x hx
    · rw [List.mem_singleton.mp hx]
      exact hended
  · have haccount := h.account
    rw [accounted] at haccount
    rw [← haccount, accounted]
    simp only [List.flatMap_append, List.flatMap_cons, List.flatMap_nil, List.append_nil,
      Job.families_append, Job.families, ← gone_append_heard w.hears j o, ← Multiset.coe_add,
      Multiset.coe_nil]
    abel

/-! ## The end of a job -/

theorem Orderly.enqueue (h : s.Orderly w jobs (j :: later) hand) :
    Orderly w jobs later hand (s.enqueue j) := by
  refine ⟨h.folder, h.quality, h.hasBars, h.hears, h.stop, ?_, h.here, h.kept, h.untouched,
    h.running, h.ended, ?_⟩
  · obtain ⟨known, hserver, hknown, hown⟩ := h.server
    have hj := h.mem_of_later (List.mem_cons_self ..)
    refine ⟨known ++ j.reply?.toList, ?_, ?_, ?_⟩
    · show s.server ++ j.reply?.toList = _
      rw [hserver, List.append_assoc]
    · intro a ha
      rcases List.mem_append.mp ha with ha | ha
      · exact hknown a ha
      · exact ⟨j, hj, Option.mem_toList.mp ha⟩
    · intro k hk a ha
      rcases List.mem_append.mp hk with hk | hk
      · exact List.mem_append_left _ (hown k hk a ha)
      · obtain rfl := List.mem_singleton.mp hk
        exact List.mem_append_right _ (Option.mem_toList.mpr ha)
  · have haccount := h.account
    rw [accounted] at haccount
    rw [← haccount, accounted, Slots.enqueue]
    simp only [Job.families_append, Job.families, List.append_nil, ← Multiset.coe_add]
    abel

theorem Orderly.enqueueAll {js : List Job} (h : s.Orderly w jobs (js ++ later) hand) :
    Orderly w jobs later hand (s.enqueueAll js) := by
  induction js generalizing s with
  | nil => exact h
  | cons j js ih => exact ih h.enqueue

/-- No download that is under way writes to the file of a job that has just ended. -/
theorem takeName_eq {path : Text}
    (h : ∀ r ∈ s.running, Path.onDisk r.transfer.path ≠ Path.onDisk path) :
    s.takeName path = s := by
  have hsame : (s.running.map fun r =>
      if Path.onDisk r.transfer.path = Path.onDisk path
      then { r with gate := Gate.unnamed r.gate } else r) = s.running := by
    refine Eq.trans (List.map_congr_left ?_) (List.map_id _)
    intro r hr
    exact if_neg (h r hr)
  rw [takeName, hsame]

theorem Orderly.tell (h : s.Orderly w jobs ((if w.hears then j.next else []) ++ later) [])
    (e : Option DownloadError) : Orderly w jobs later [] (s.tell j e) := by
  have hhears := h.hears
  unfold Slots.tell
  cases hlistener : s.listener with
  | none =>
    rw [hlistener] at hhears
    rw [← hhears] at h
    exact h
  | some f =>
    rw [hlistener] at hhears
    rw [← hhears] at h
    have htold := h.recounted s.submitted s.completed s.failed (s.told ++ [(j.record.id, e)])
      (s.log ++ f j.record e)
    rw [hlistener] at htold
    exact htold.enqueueAll

theorem Orderly.finish (h : s.Orderly w jobs later [j]) (hs : w.Suits jobs) {o : Outcome}
    (hended : w.Ended s.disk j o) :
    Orderly w jobs later [] (s.finish j (w.path j) o) := by
  have hj := h.mem_of_hand (List.mem_singleton_self j)
  have hleft := h.leave hs hended
  have hname : takeName { s with ended := s.ended ++ [(j, o)] } (w.path j)
      = { s with ended := s.ended ++ [(j, o)] } := by
    apply takeName_eq
    intro r hr
    have hpath : r.transfer.path = w.path r.job := by
      rw [(h.running r hr).transfer]
      rfl
    rw [hpath]
    exact hs.onDisk_path_ne hj (h.mem_of_running hr)
      (h.ne_of_running hs (List.mem_singleton_self j) hr)
  unfold Slots.finish
  cases o with
  | saved => exact (hleft.recounted s.submitted (s.completed + 1) s.failed s.told s.log).tell none
  | failed e =>
    dsimp only
    rw [hname]
    exact (hleft.recounted s.submitted (s.completed + 1) (s.failed + 1) s.told _).tell (some e)
  | cancelled =>
    dsimp only
    rw [hname]
    exact hleft
  | stopped stop => cases hended

theorem Orderly.settle (h : s.Orderly w jobs later [j]) (hs : w.Suits jobs)
    {before after : List Running} (hrunning : s.running = before ++ after) {step : Step}
    (hstep : Moves w s.disk j step) {t : Transfer} (ht : t = w.transfer j) {reply : ImageReply}
    (hreply : reply = w.reply j) :
    Orderly w jobs later [] (s.settle before j t reply after step) := by
  have hmoved := h.moved hs hstep
  have hsame : { s with running := before ++ after } = s := by rw [← hrunning]
  rw [Slots.settle]
  cases hprogress : step.progress with
  | standing gate =>
    obtain ⟨hfresh, hright⟩ := hstep.standing gate hprogress
    exact hmoved.stand hrunning (r := ⟨j, t, reply, gate⟩) rfl ⟨ht, hreply, hfresh, hright⟩
  | ended o =>
    have hfinish := hmoved.finish hs (hstep.ended o hprogress)
    rw [ht]
    rw [← hsame] at hfinish
    exact hfinish

/-! ## Starting -/

theorem Orderly.transferOf (h : s.Orderly w jobs later hand) (j : Job) :
    s.transferOf j = w.transfer j := by
  rw [Slots.transferOf, h.quality, h.folder, h.hasBars]
  rfl

/-- A job that waits has its own reply, whatever other replies came to be known. -/
theorem Orderly.replyTo (h : s.Orderly w jobs later hand) (hs : w.Suits jobs)
    (hwaits : j ∈ s.waiting) (hj : j ∈ jobs) :
    s.server.replyTo (w.transfer j).url = w.reply j := by
  obtain ⟨known, hserver, hknown, hown⟩ := h.server
  rw [hserver]
  exact hs.answered j hj known hknown (hown j hwaits)

theorem Orderly.begin (h : s.Orderly w jobs later []) (hs : w.Suits jobs) (gatesOpen : Bool)
    {rest : List Job} (hw : s.waiting = j :: rest) :
    Orderly w jobs later [] (begin { s with waiting := rest } gatesOpen j) := by
  have hfront : s.waiting = [] ++ j :: rest := hw
  have htaken : Orderly w jobs later [j] { s with waiting := rest } := h.take_waiting hfront
  have hj := htaken.mem_of_hand (List.mem_singleton_self j)
  have hreply := h.replyTo hs (by rw [hw]; exact List.mem_cons_self ..) hj
  have htransfer := htaken.transferOf j
  have hat := h.at?_of_waiting hs hfront
  refine htaken.settle hs (List.append_nil _).symm ?_ htransfer ?_
  · rw [htransfer]
    -- The job looks for its file first: what it finds there was there when all began.
    by_cases hfresh : w.disk.at? (w.path j) = none
    · have hadvances := (hs.goesTo (htaken.isFolder hs) hj).start_advances (hat.trans hfresh) hreply
        (hs.ordinary j hj) gatesOpen
      exact moves_of_advances hs hj hfresh hadvances
    · have hentry : s.disk.at? (w.transfer j).path ≠ none := by
        show s.disk.at? (w.path j) ≠ none
        rwa [hat]
      obtain ⟨log, hlog⟩ := Transfer.start_of_entry hentry gatesOpen s.server
      show Moves w s.disk j ((w.transfer j).start s.disk gatesOpen s.server)
      rw [hlog]
      exact moves_of_present h.kept hfresh log
  · rw [htransfer]
    exact hreply

/-- By induction along the starts. -/
theorem Orderly.fill (h : s.Orderly w jobs later []) (hs : w.Suits jobs) (gatesOpen : Bool) :
    Orderly w jobs later [] (s.fill gatesOpen) := by
  fun_induction s.fill gatesOpen with
  | case1 s hw => exact h
  | case2 s j rest hw hfree _ ih => exact ih (h.begin hs gatesOpen hw)
  | case3 s j rest hw hfull => exact h

/-! ## Going on and giving up -/

section Slot

variable {before after : List Running} {r : Running}

theorem Orderly.advance (h : s.Orderly w jobs later []) (hs : w.Suits jobs) (gatesOpen : Bool)
    (hr : s.running = before ++ r :: after) :
    Orderly w jobs later [] (s.advance gatesOpen before r after) := by
  obtain ⟨htaken, hruns⟩ := h.take_running hr
  have hj := htaken.mem_of_hand (List.mem_singleton_self _)
  refine htaken.settle hs rfl ?_ hruns.transfer hruns.reply
  rw [hruns.transfer, hruns.reply]
  exact moves_of_advances hs hj hruns.fresh ((hs.goesTo (h.isFolder hs) hj).resume_advances
    (hs.ordinary _ hj) hruns.right gatesOpen)

theorem Orderly.cancelRunning (h : s.Orderly w jobs later []) (hs : w.Suits jobs)
    (hr : s.running = before ++ r :: after) :
    Orderly w jobs later [] (s.cancelRunning before r after) := by
  obtain ⟨htaken, hruns⟩ := h.take_running hr
  have hj := htaken.mem_of_hand (List.mem_singleton_self _)
  refine htaken.settle hs rfl ?_ hruns.transfer hruns.reply
  rw [hruns.transfer]
  exact moves_of_advances hs hj hruns.fresh
    ((hs.goesTo (h.isFolder hs) hj).cancel_advances hruns.right)

end Slot

end Slots

end GalleryScan
