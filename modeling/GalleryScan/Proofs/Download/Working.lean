import GalleryScan.Proofs.Download.Telling
import Mathlib.Logic.Relation

/-!
# Jobs at work

What jobs do by themselves is to take a slot and to go on from a gate; they are neither submitted
nor cancelled that way. Where no job has others to come after it, as many have been submitted at the
end of such a `Work` as at its start. A job that was not cancelled has been completed once it is
neither waiting nor in a slot, and the listener has been told of as many failures as there were:

> `s.InOrder p q n → s.unfinished = 0 → s.completed = s.submitted`
-/

set_option autoImplicit false

namespace GalleryScan.Slots

/-- A job takes a slot or goes on from its gate. -/
inductive Work : Slots → Slots → Prop where
  | start (s : Slots) (gatesOpen : Bool) (j : Job) (rest : List Job) (next : s.waiting = j :: rest)
      (free : s.running.length < s.capacity) : Work s (begin { s with waiting := rest } gatesOpen j)
  | goOn (s : Slots) (gatesOpen : Bool) (before : List Running) (r : Running)
      (after : List Running) (place : s.running = before ++ r :: after) :
      Work s (s.advance gatesOpen before r after)

theorem Work.turn {s s' : Slots} (h : Work s s') : Turn s s' := by
  cases h with
  | start gatesOpen j rest next free => exact .start s gatesOpen j rest next free
  | goOn gatesOpen before r after place => exact .goOn s gatesOpen before r after place

/-! ## All jobs are waited for -/

open Relation (ReflTransGen)

theorem works_fill (s : Slots) (gatesOpen : Bool) :
    ReflTransGen Work s (s.fill gatesOpen) := by
  fun_induction s.fill gatesOpen with
  | case1 s hw => exact .refl
  | case2 s j rest hw hfree _ ih =>
    have hroom : s.running.length < s.capacity := by
      rw [Bool.and_eq_true, decide_eq_true_iff] at hfree
      exact hfree.1
    exact .head (.start s gatesOpen j rest hw hroom) ih
  | case3 s j rest hw hfull => exact .refl

theorem works_finishRunning (m : Nat) (s : Slots) : ReflTransGen Work s (finishRunning m s) := by
  induction m generalizing s with
  | zero => exact .refl
  | succ m ih =>
    unfold finishRunning
    split
    · rename_i r rest hrunning
      split
      · exact .refl
      · exact .head (.goOn s true [] r rest hrunning) (ih _)
    · exact .refl

theorem works_drain {s : Slots} (hstop : s.stop = none) : ReflTransGen Work s s.drain := by
  have hnone : { s with stop := none } = s := by rw [← hstop]
  rw [drain, hnone]
  exact (works_finishRunning s.running.length s).trans (works_fill _ true)

/-! ## Jobs with nothing to come after them -/

/-- No job that has not ended has others to come after it. -/
structure Single (s : Slots) : Prop where
  waiting : ∀ j ∈ s.waiting, j.next = []
  running : ∀ r ∈ s.running, r.job.next = []

variable {s s' : Slots} {j : Job} {before after : List Running}

theorem tell_single (hj : j.next = []) (e : Option DownloadError) :
    (s.tell j e).submitted = s.submitted ∧ (s.tell j e).waiting = s.waiting := by
  unfold tell
  split
  · exact ⟨rfl, rfl⟩
  · rw [hj]
    exact ⟨rfl, rfl⟩

theorem finish_single (hj : j.next = []) (path : Text) (o : Outcome) :
    (s.finish j path o).submitted = s.submitted ∧ (s.finish j path o).waiting = s.waiting := by
  cases o with
  | saved => exact tell_single hj none
  | failed e => exact tell_single hj (some e)
  | cancelled | stopped => exact ⟨rfl, rfl⟩

/-- What is in a slot behind the end of a job was in one before. -/
theorem mem_running_finish {path : Text} {o : Outcome} {r : Running}
    (hr : r ∈ (s.finish j path o).running) : ∃ r' ∈ s.running, r'.job = r.job := by
  have htake : ∀ {s : Slots}, r ∈ (s.takeName path).running → ∃ r' ∈ s.running, r'.job = r.job := by
    intro s hr
    obtain ⟨r', hr', rfl⟩ := List.mem_map.mp hr
    refine ⟨r', hr', ?_⟩
    split <;> rfl
  cases o with
  | saved => exact ⟨r, by rwa [finish, running_tell] at hr, rfl⟩
  | failed e =>
    rw [finish, running_tell] at hr
    exact htake hr
  | cancelled => exact htake hr
  | stopped => exact ⟨r, hr, rfl⟩

/-- A job's step submits nothing. -/
theorem Single.settle (h : s.Single) (hj : j.next = []) (hrunning : s.running = before ++ after)
    (t : Transfer) (reply : ImageReply) (step : Step) :
    (s.settle before j t reply after step).Single
      ∧ (s.settle before j t reply after step).submitted = s.submitted := by
  unfold Slots.settle
  split
  · refine ⟨⟨h.waiting, ?_⟩, rfl⟩
    intro r hr
    simp only [List.mem_append, List.mem_cons] at hr
    rcases hr with hr | rfl | hr
    · exact h.running r (by simp [hrunning, hr])
    · exact hj
    · exact h.running r (by simp [hrunning, hr])
  · rename_i o _
    obtain ⟨hsubmitted, hwaiting⟩ := finish_single
      (s := { s with log := s.log ++ step.log, disk := step.disk, running := before ++ after })
      hj t.path o
    refine ⟨⟨?_, ?_⟩, hsubmitted⟩
    · rw [hwaiting]
      exact h.waiting
    · intro r hr
      obtain ⟨r', hr', hjob⟩ := mem_running_finish hr
      rw [← hjob]
      exact h.running r' (by rw [hrunning]; exact hr')

theorem Single.work (h : s.Single) (hwork : Work s s') :
    s'.Single ∧ s'.submitted = s.submitted := by
  cases hwork with
  | start gatesOpen j rest next free =>
    have htaken : Single { s with waiting := rest } :=
      ⟨fun k hk => h.waiting k (by simp [next, hk]), h.running⟩
    exact htaken.settle (h.waiting j (by simp [next])) (List.append_nil _).symm _ _ _
  | goOn gatesOpen before r after place =>
    have htaken : Single { s with running := before ++ after } := by
      refine ⟨h.waiting, fun r' hr' => h.running r' ?_⟩
      rw [place]
      exact ((List.sublist_cons_self r after).append_left before).mem hr'
    exact htaken.settle (h.running r (by simp [place])) rfl _ _ _

/-! ## The books of jobs that are not cancelled -/

/-- The books are right, every end was told, and nothing was cancelled. -/
structure InOrder (p q : Text) (n : Nat) (s : Slots) : Prop where
  balanced : s.Balanced p q n true 0
  told : ∃ js, s.Told true js [] []
  kept : s.cancelled = 0
  single : s.Single

variable {p q : Text} {n : Nat}

theorem cancelled_work (hwork : Work s s') : s'.cancelled = s.cancelled := by
  cases hwork with
  | start gatesOpen j rest next free => exact cancelled_settle (Transfer.start_concludes _ _ _ _)
  | goOn gatesOpen before r after place =>
    exact cancelled_settle (Transfer.resume_concludes _ _ _ _ _)

theorem InOrder.work (h : s.InOrder p q n) (hwork : Work s s') :
    s'.InOrder p q n ∧ s'.submitted = s.submitted := by
  obtain ⟨js, htold⟩ := h.told
  obtain ⟨hsingle, hsubmitted⟩ := h.single.work hwork
  have hinside : ∀ k, s' ≠ s.enqueue k := by
    rintro k rfl
    exact absurd hsubmitted (Nat.lt_succ_self s.submitted).ne'
  exact ⟨⟨h.balanced.turn hwork.turn, ⟨js, htold.turn h.balanced hwork.turn hinside⟩,
    (cancelled_work hwork).trans h.kept, hsingle⟩, hsubmitted⟩

theorem InOrder.enqueue (h : s.InOrder p q n) (hj : ∀ k ∈ j.family true, k.IsOrdinary q)
    (hnext : j.next = []) : (s.enqueue j).InOrder p q n := by
  obtain ⟨js, htold⟩ := h.told
  refine ⟨h.balanced.enqueue hj, ⟨js ++ [j], htold.handIn j⟩, h.kept, ?_, h.single.running⟩
  intro k hk
  rcases List.mem_append.mp hk with hk | hk
  · exact h.single.waiting k hk
  · rwa [List.mem_singleton.mp hk]

/-- What is on the disk and what has been said is not in the books. -/
theorem InOrder.aside (h : s.InOrder p q n) (disk : Disk) (log : Log) :
    InOrder p q n { s with disk, log } := by
  obtain ⟨js, htold⟩ := h.told
  exact ⟨{ h.balanced with }, ⟨js, { htold with }⟩, h.kept, { h.single with }⟩

/-- As many failures were told as there were. -/
theorem InOrder.countP_told (h : s.InOrder p q n) :
    s.told.countP (·.2.isSome) = s.ended.countP (·.2.isFailed) := by
  obtain ⟨js, htold⟩ := h.told
  rw [htold.told, if_pos rfl, countP_report]

theorem InOrder.failed_le (h : s.InOrder p q n) :
    s.ended.countP (·.2.isFailed) ≤ s.submitted := by
  have hcompleted : s.ended.countP (·.2.isFailed) ≤ s.ended.countP (·.2.isCompleted) := by
    apply List.countP_mono_left
    rintro ⟨k, o⟩ _ hfailed
    cases o with
    | failed e => rfl
    | saved | cancelled | stopped => cases hfailed
  rw [← h.balanced.completed] at hcompleted
  have hsubmitted := h.balanced.submitted
  omega

/-- When no job is left all have been completed. -/
theorem InOrder.completed_of_idle (h : s.InOrder p q n) (hidle : s.unfinished = 0) :
    s.completed = s.submitted := by
  rw [h.balanced.submitted, hidle, h.kept, Nat.zero_add, Nat.add_zero]

theorem inOrder_empty {hasBars : Bool} {concurrency : Int}
    {listener : Record → Option DownloadError → Log} {server : ImageServer} {disk : Disk}
    (hfolder : Disk.checkPath p = .ok ()) (hserver : ∀ a ∈ server, a.2.IsOrdinary) :
    InOrder p q (capacityFor concurrency)
      (empty p q hasBars concurrency (some listener) server disk) := by
  refine ⟨balanced_empty (some listener) hfolder hserver, ⟨[], rfl, rfl, ?_, ?_, ?_⟩, rfl, ?_, ?_⟩
  all_goals simp [empty]

end GalleryScan.Slots
