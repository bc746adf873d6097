import GalleryScan.Proofs.Download.Accounting

/-!
# Every end is told once

Jobs are handed in from outside at any time, and whoever listens submits more of them when one has
ended. Whatever turns there are, a job is in one place only, and the listener has been told of the
ends there were, each once and in their order, of a failure with what failed, and of nothing that
was cancelled:

> `s.told = s.ended.filterMap report`

With all gates open every step of a download is its last. So nothing is left when all jobs have been
waited for, however many were submitted meanwhile.
-/

set_option autoImplicit false

namespace GalleryScan

namespace Step

/-- If the download fails in this step, the failure names what is downloaded. -/
def Blames (step : Step) (id : Json) : Prop := ∀ e, step.progress = .ended (.failed e) → e.id = id

/-- If the download ends in this step, it does so by itself: with its file, with a failure that
names it, or with the program. -/
def Concludes (step : Step) (id : Json) : Prop :=
  ∀ o, step.progress = .ended o →
    o = .saved ∨ (∃ cause, o = .failed ⟨id, cause⟩) ∨ ∃ stop, o = .stopped stop

/-- The step is the last one of its download. -/
def Ends (step : Step) : Prop := ∃ o, step.progress = .ended o

theorem Concludes.blames {step : Step} {id : Json} (h : step.Concludes id) : step.Blames id := by
  intro e he
  rcases h _ he with hsaved | ⟨cause, hfailed⟩ | ⟨stop, hstopped⟩
  · cases hsaved
  · cases hfailed
    rfl
  · cases hstopped

theorem concludes_saved (log : Log) (d : Disk) (id : Json) :
    Concludes ⟨log, d, .ended .saved⟩ id := by
  intro o ho
  cases ho
  exact .inl rfl

theorem concludes_standing (log : Log) (d : Disk) (gate : Gate) (id : Json) :
    Concludes ⟨log, d, .standing gate⟩ id := by
  intro o ho
  cases ho

end Step

namespace Transfer

variable (t : Transfer) (d : Disk)

/-! ## How downloads end by themselves -/

theorem fail_concludes (cause : DownloadCause) : (t.fail d cause).Concludes t.id := by
  intro o ho
  unfold fail endWithout at ho
  split at ho
  · cases ho
    exact .inr (.inl ⟨cause, rfl⟩)
  · cases ho
    exact .inr (.inr ⟨_, rfl⟩)

theorem receive_concludes (gatesOpen : Bool) (break? : Option Text) (file : Stream)
    (chunks : List Chunk) : (t.receive gatesOpen break? d file chunks).Concludes t.id := by
  fun_induction t.receive gatesOpen break? d file chunks with
  | case1 | case3 => exact Step.concludes_saved _ _ _
  | case2 => exact t.fail_concludes _ _
  | case4 _ _ _ _ _ _ _ _ ih => exact ih
  | case5 _ _ _ _ ih => exact ih
  | case6 => exact Step.concludes_standing _ _ _ _

theorem respond_concludes (gatesOpen : Bool) (reply : ImageReply) :
    (t.respond d gatesOpen reply).Concludes t.id := by
  unfold respond
  split
  · split
    · intro o ho
      cases ho
      exact .inr (.inr ⟨_, rfl⟩)
    · exact t.fail_concludes _ _
  · split
    · exact t.fail_concludes _ _
    · split
      · exact t.fail_concludes _ _
      · dsimp only
        split
        · exact t.fail_concludes _ _
        · split
          · exact t.fail_concludes _ _
          · exact t.receive_concludes _ _ _ _ _

theorem start_concludes (gatesOpen : Bool) (server : ImageServer) :
    (t.start d gatesOpen server).Concludes t.id := by
  unfold start
  split
  · exact Step.concludes_saved _ _ _
  · dsimp only
    split
    · exact Step.concludes_standing _ _ _ _
    · exact t.respond_concludes d gatesOpen _

theorem resume_concludes (gatesOpen : Bool) (reply : ImageReply) (gate : Gate) :
    (t.resume d gatesOpen reply gate).Concludes t.id := by
  cases gate with
  | answer => exact t.respond_concludes d gatesOpen reply
  | body rest break? file => exact t.receive_concludes d gatesOpen break? file rest

theorem cancel_blames : (t.cancel d).Blames t.id := by
  intro e he
  unfold cancel endWithout at he
  split at he <;> cases he

/-! ## With all gates open every step is the last -/

theorem endWithout_ends (o : Outcome) : (t.endWithout d o).Ends := by
  unfold endWithout
  split
  · exact ⟨_, rfl⟩
  · exact ⟨_, rfl⟩

theorem receive_ends (break? : Option Text) (file : Stream) (chunks : List Chunk) :
    (t.receive true break? d file chunks).Ends := by
  induction chunks generalizing d file with
  | nil =>
    cases break? with
    | none => exact ⟨.saved, rfl⟩
    | some message => exact t.endWithout_ends d _
  | cons c chunks ih =>
    cases c with
    | gate => exact ih d file
    | data content =>
      cases content with
      | nil => exact ⟨.saved, rfl⟩
      | cons b bs => exact ih _ _

theorem respond_ends (reply : ImageReply) : (t.respond d true reply).Ends := by
  unfold respond
  split
  · split
    · exact ⟨_, rfl⟩
    · exact t.endWithout_ends d _
  · split
    · exact t.endWithout_ends d _
    · split
      · exact t.endWithout_ends d _
      · dsimp only
        split
        · exact t.endWithout_ends d _
        · split
          · exact t.endWithout_ends _ _
          · exact t.receive_ends _ _ _ _

theorem start_ends (server : ImageServer) : (t.start d true server).Ends := by
  unfold start
  split
  · exact ⟨.saved, rfl⟩
  · dsimp only
    rw [Bool.not_true, Bool.and_false, if_neg Bool.false_ne_true]
    exact t.respond_ends d _

theorem resume_ends (reply : ImageReply) (gate : Gate) : (t.resume d true reply gate).Ends := by
  cases gate with
  | answer => exact t.respond_ends d reply
  | body rest break? file => exact t.receive_ends d break? file rest

end Transfer

namespace Slots

/-! ## What is told of an end -/

/-- What the listener is told of a job's end, if it is told of it. -/
def report (x : Job × Outcome) : Option (Json × Option DownloadError) :=
  match x.2 with
  | .saved => some (x.1.record.id, none)
  | .failed e => some (x.1.record.id, some e)
  | .cancelled | .stopped _ => none

/-- Turns, with the jobs that are handed in from outside on the way. -/
inductive HandedIn (s : Slots) : List Job → Slots → Prop where
  | start : HandedIn s [] s
  | job {js : List Job} {s' : Slots} (before : HandedIn s js s') (j : Job)
      (ordinary : ∀ k ∈ j.family s'.listener.isSome, k.IsOrdinary s'.quality) :
      HandedIn s (js ++ [j]) (s'.enqueue j)
  | turn {js : List Job} {s' s'' : Slots} (before : HandedIn s js s') (turn : Turn s' s'')
      (inside : ∀ j, s'' ≠ s'.enqueue j) : HandedIn s js s''

variable {s s' : Slots} {js : List Job}

theorem HandedIn.turns (h : HandedIn s js s') : Turns s s' := by
  induction h with
  | start => exact .none
  | job _ j ordinary ih => exact ih.more (.submit _ j ordinary)
  | turn _ turn _ ih => exact ih.more turn

/-- All jobs by the place where they are, those in hand among them. -/
def places (s : Slots) (hand : List Job) : Multiset Job :=
  ↑(s.ended.map Prod.fst) + ↑(s.running.map Running.job) + ↑hand + ↑s.waiting

/-- The jobs that the ends of others have brought about. -/
def broughtAbout (hears : Bool) (s : Slots) : List Job :=
  s.ended.flatMap fun x => heard hears x.1 x.2

/-- Every job has one place, and what was told is what there was to tell. Some of the jobs that ends
have brought about may still have to be submitted. -/
structure Told (hears : Bool) (js later hand : List Job) (s : Slots) : Prop where
  placed : s.places hand + ↑later = ↑js + ↑(s.broughtAbout hears)
  told : s.told = if hears then s.ended.filterMap report else []
  running : ∀ r ∈ s.running, r.transfer.id = r.job.record.id
  blames : ∀ j e, (j, .failed e) ∈ s.ended → e.id = j.record.id
  ordinary : ∀ j stop, (j, .stopped stop) ∉ s.ended

variable {hears : Bool} {later hand : List Job} {j : Job}

/-! ## From place to place -/

section Places

variable {front back : List Job} {before after : List Running} {r : Running}

theorem places_take_waiting (hw : s.waiting = front ++ j :: back) :
    places { s with waiting := front ++ back } [j] = s.places [] := by
  simp only [places, hw, ← Multiset.coe_add, ← Multiset.cons_coe, ← Multiset.singleton_add,
    Multiset.coe_nil]
  abel

theorem places_enqueue (s : Slots) (j : Job) :
    (s.enqueue j).places hand = s.places hand + ↑[j] := by
  simp only [places, enqueue, ← Multiset.coe_add]
  abel

theorem places_take_running (hr : s.running = before ++ r :: after) :
    places { s with running := before ++ after } [r.job] = s.places [] := by
  simp only [places, hr, List.map_append, List.map_cons, ← Multiset.coe_add, ← Multiset.cons_coe,
    ← Multiset.singleton_add, Multiset.coe_nil]
  abel

theorem places_stand (hrunning : s.running = before ++ after) :
    places { s with running := before ++ r :: after } [] = s.places [r.job] := by
  simp only [places, hrunning, List.map_append, List.map_cons, ← Multiset.coe_add,
    ← Multiset.cons_coe, ← Multiset.singleton_add, Multiset.coe_nil]
  abel

theorem places_leave (s : Slots) (j : Job) (o : Outcome) :
    places { s with ended := s.ended ++ [(j, o)] } [] = s.places [j] := by
  simp only [places, List.map_append, List.map_cons, List.map_nil, ← Multiset.coe_add,
    Multiset.coe_nil]
  abel

theorem places_takeName (s : Slots) (path : Text) :
    (s.takeName path).places hand = s.places hand := by
  have hjobs : (s.takeName path).running.map Running.job = s.running.map Running.job := by
    rw [takeName, List.map_map]
    apply List.map_congr_left
    intro r _
    rw [Function.comp_apply]
    split <;> rfl
  rw [places, hjobs]
  rfl

end Places

/-! ## One job at a time -/

theorem Told.take_waiting (h : s.Told hears js later []) {front back : List Job}
    (hw : s.waiting = front ++ j :: back) :
    Told hears js later [j] { s with waiting := front ++ back } :=
  { h with placed := places_take_waiting hw ▸ h.placed }

theorem Told.enqueue (h : s.Told hears js (j :: later) hand) :
    Told hears js later hand (s.enqueue j) := by
  refine { h with placed := ?_ }
  rw [places_enqueue, add_assoc, Multiset.coe_add]
  exact h.placed

theorem Told.enqueueAll {ks : List Job} (h : s.Told hears js (ks ++ later) hand) :
    Told hears js later hand (s.enqueueAll ks) := by
  induction ks generalizing s with
  | nil => exact h
  | cons k ks ih => exact ih h.enqueue

/-- A job from outside is handed in. -/
theorem Told.handIn (h : s.Told hears js [] []) (j : Job) :
    Told hears (js ++ [j]) [] [] (s.enqueue j) := by
  refine Told.enqueue { h with placed := ?_ }
  have hplaced := h.placed
  rw [Multiset.coe_nil, add_zero] at hplaced
  rw [hplaced, ← Multiset.coe_add]
  exact add_right_comm ..

section Slot

variable {before after : List Running} {r : Running}

theorem Told.take_running (h : s.Told hears js later []) (hr : s.running = before ++ r :: after) :
    Told hears js later [r.job] { s with running := before ++ after } := by
  refine { h with placed := places_take_running hr ▸ h.placed, running := ?_ }
  intro q hq
  apply h.running q
  rw [hr]
  exact ((List.sublist_cons_self r after).append_left before).mem hq

theorem Told.stand (h : s.Told hears js later [r.job]) (hrunning : s.running = before ++ after)
    (hr : r.transfer.id = r.job.record.id) :
    Told hears js later [] { s with running := before ++ r :: after } := by
  refine { h with placed := places_stand hrunning ▸ h.placed, running := ?_ }
  intro q hq
  rcases List.mem_append.mp hq with hq | hq
  · exact h.running q (hrunning ▸ List.mem_append_left _ hq)
  rcases List.mem_cons.mp hq with rfl | hq
  · exact hr
  · exact h.running q (hrunning ▸ List.mem_append_right _ hq)

end Slot

/-- The job in hand has ended and its end is told. What that brings about is still to be
submitted. -/
theorem Told.leave (h : s.Told hears js [] [j]) {o : Outcome}
    (hblames : ∀ e, o = .failed e → e.id = j.record.id) (hstays : ∀ stop, o ≠ .stopped stop) :
    Told hears js (heard hears j o) [] { s with
      ended := s.ended ++ [(j, o)]
      told := s.told ++ if hears then (report (j, o)).toList else [] } := by
  refine ⟨?_, ?_, h.running, ?_, ?_⟩
  · have hplaced := h.placed
    rw [Multiset.coe_nil, add_zero, ← places_leave s j o] at hplaced
    rw [broughtAbout, List.flatMap_append, List.flatMap_singleton, ← Multiset.coe_add, ← add_assoc]
    exact congrArg (· + _) hplaced
  · rw [h.told]
    cases hears with
    | false => rfl
    | true =>
      have hlast : [(j, o)].filterMap report = (report (j, o)).toList := by
        cases o <;> rfl
      rw [if_pos rfl, if_pos rfl, if_pos rfl, List.filterMap_append, hlast]
  · intro k e hk
    rcases List.mem_append.mp hk with hk | hk
    · exact h.blames k e hk
    · cases List.mem_singleton.mp hk
      exact hblames e rfl
  · intro k stop hk
    rcases List.mem_append.mp hk with hk | hk
    · exact h.ordinary k stop hk
    · cases List.mem_singleton.mp hk
      exact hstays stop rfl

/-- Nobody is told of a job that is cancelled. -/
theorem Told.leave_cancelled (h : s.Told hears js [] [j]) :
    Told hears js [] [] { s with ended := s.ended ++ [(j, .cancelled)] } := by
  have hleft := h.leave (o := .cancelled) (fun e he => by cases he) fun stop hstop => by cases hstop
  have htold := hleft.told
  rw [show (if hears then (report (j, .cancelled)).toList else []) = [] from ite_self _,
    List.append_nil] at htold
  exact { hleft with told := htold }

theorem Told.takeName (h : s.Told hears js later hand) (path : Text) :
    Told hears js later hand (s.takeName path) := by
  refine { h with placed := places_takeName s path ▸ h.placed, running := ?_ }
  intro r hr
  obtain ⟨r', hr', rfl⟩ := List.mem_map.mp hr
  have hrunning := h.running r' hr'
  split <;> exact hrunning

theorem Told.tell {e : Option DownloadError} (hhears : s.listener.isSome = hears)
    (h : Told hears js (if hears then j.next else []) []
      { s with told := s.told ++ if hears then [(j.record.id, e)] else [] }) :
    Told hears js [] [] (s.tell j e) := by
  unfold Slots.tell
  cases hlistener : s.listener with
  | none =>
    rw [hlistener] at hhears
    subst hhears
    have hsame : ({ s with told := s.told ++ [] } : Slots) = s := by rw [List.append_nil]
    exact hsame ▸ h
  | some f =>
    rw [hlistener] at hhears
    subst hhears
    have htold : Told true js (j.next ++ []) []
        { s with told := s.told ++ [(j.record.id, e)], log := s.log ++ f j.record e } := by
      rw [List.append_nil]
      exact { h with }
    rw [hlistener] at htold
    exact htold.enqueueAll

theorem Told.finish (h : s.Told hears js [] [j]) (hhears : s.listener.isSome = hears) (path : Text)
    {o : Outcome} (hblames : ∀ e, o = .failed e → e.id = j.record.id)
    (hstays : ∀ stop, o ≠ .stopped stop) : Told hears js [] [] (s.finish j path o) := by
  have hleft := h.leave hblames hstays
  unfold Slots.finish
  cases o with
  | saved => exact Told.tell hhears { hleft with }
  | failed e => exact Told.tell hhears { hleft.takeName path with }
  | cancelled => exact h.leave_cancelled.takeName path
  | stopped stop => exact absurd rfl (hstays stop)

/-- The job in hand has made a step and is put down where that leads. -/
theorem Told.settle (h : s.Told hears js [] [j]) (hhears : s.listener.isSome = hears)
    {before after : List Running} (hrunning : s.running = before ++ after) {t : Transfer}
    (ht : t.id = j.record.id) (reply : ImageReply) {step : Step} (hblames : step.Blames t.id)
    (hstays : step.Stays) : Told hears js [] [] (s.settle before j t reply after step) := by
  have hmoved : Told hears js [] [j]
      { s with log := s.log ++ step.log, disk := step.disk, running := before ++ after } := by
    rw [← hrunning]
    exact { h with }
  rw [Slots.settle]
  cases hprogress : step.progress with
  | standing gate => exact hmoved.stand (r := ⟨j, t, reply, gate⟩) rfl ht
  | ended o =>
    apply hmoved.finish hhears
    · intro e he
      rw [← ht]
      exact hblames e (he ▸ hprogress)
    · exact fun stop hstop => hstays stop (hstop ▸ hprogress)

/-! ## Every turn -/

variable {p q : Text} {n : Nat}

theorem Told.begin (h : s.Told hears js [] []) (hs : s.Balanced p q n hears 0) (gatesOpen : Bool)
    {rest : List Job} (next : s.waiting = j :: rest) :
    Told hears js [] [] (begin { s with waiting := rest } gatesOpen j) := by
  have htaken := h.take_waiting (show s.waiting = [] ++ j :: rest from next)
  exact htaken.settle hs.listener (List.append_nil _).symm rfl _
    (Transfer.start_concludes _ _ _ _).blames
    (hs.start_stays gatesOpen (next ▸ List.mem_cons_self ..))

theorem Told.turn (h : s.Told hears js [] []) (hs : s.Balanced p q n hears 0) (ht : Turn s s')
    (inside : ∀ j, s' ≠ s.enqueue j) : s'.Told hears js [] [] := by
  cases ht with
  | submit j ordinary => exact absurd rfl (inside j)
  | start gatesOpen j rest next free => exact h.begin hs gatesOpen next
  | goOn gatesOpen before r after place =>
    have hr : r ∈ s.running := place ▸ List.mem_append_right _ (List.mem_cons_self ..)
    exact (h.take_running place).settle hs.listener rfl (h.running r hr) r.reply
      (Transfer.resume_concludes _ _ _ _ _).blames (hs.resume_stays gatesOpen hr)
  | cancelRunning before r after place =>
    have hr : r ∈ s.running := place ▸ List.mem_append_right _ (List.mem_cons_self ..)
    exact (h.take_running place).settle hs.listener rfl (h.running r hr) r.reply
      (Transfer.cancel_blames _ _) (hs.cancel_stays hr)
  | cancelWaiting front j back place =>
    exact (h.take_waiting place).leave_cancelled

/-- By induction on the turns, with the books at hand. -/
theorem Told.handedIn (h : s.Told hears [] [] []) (hs : s.Balanced p q n hears 0)
    (hjs : HandedIn s js s') : s'.Told hears js [] [] := by
  induction hjs with
  | start => exact h
  | job _ j _ ih => exact ih.handIn j
  | turn before turn inside ih => exact ih.turn (hs.turns before.turns) turn inside

/-! ## All jobs are waited for -/

theorem ended_enqueueAll (s : Slots) (ks : List Job) : (s.enqueueAll ks).ended = s.ended := by
  induction ks generalizing s with
  | nil => rfl
  | cons k ks ih => exact ih (s.enqueue k)

theorem running_enqueueAll (s : Slots) (ks : List Job) : (s.enqueueAll ks).running = s.running := by
  induction ks generalizing s with
  | nil => rfl
  | cons k ks ih => exact ih (s.enqueue k)

theorem ended_tell (s : Slots) (j : Job) (e : Option DownloadError) :
    (s.tell j e).ended = s.ended := by
  unfold tell
  split
  · rfl
  · exact ended_enqueueAll _ _

theorem running_tell (s : Slots) (j : Job) (e : Option DownloadError) :
    (s.tell j e).running = s.running := by
  unfold tell
  split
  · rfl
  · exact running_enqueueAll _ _

theorem ended_finish (s : Slots) (j : Job) (path : Text) (o : Outcome) :
    (s.finish j path o).ended = s.ended ++ [(j, o)] := by
  cases o with
  | saved => exact ended_tell _ j none
  | failed e => exact ended_tell _ j (some e)
  | cancelled | stopped => rfl

theorem length_running_finish (s : Slots) (j : Job) (path : Text) (o : Outcome) :
    (s.finish j path o).running.length = s.running.length := by
  cases o with
  | saved => exact congrArg List.length (running_tell _ j none)
  | failed e => exact (congrArg List.length (running_tell _ j (some e))).trans (List.length_map ..)
  | cancelled => exact List.length_map ..
  | stopped => rfl

/-- A job's step is not the submission of another. -/
theorem settle_ne_enqueue (s : Slots) (rest : List Job) (before : List Running) (j : Job)
    (t : Transfer) (reply : ImageReply) (after : List Running) (step : Step) (k : Job) :
    settle { s with waiting := rest } before j t reply after step ≠ s.enqueue k := by
  intro hsame
  unfold settle at hsame
  split at hsame
  · have hsubmitted := congrArg submitted hsame
    exact absurd hsubmitted (Nat.lt_succ_self s.submitted).ne
  · have hended := congrArg (fun s => s.ended.length) hsame
    dsimp only at hended
    rw [ended_finish, List.length_append] at hended
    exact absurd hended (Nat.lt_succ_self s.ended.length).ne'

theorem HandedIn.fill {gatesOpen : Bool} (h : HandedIn s js s') :
    HandedIn s js (s'.fill gatesOpen) := by
  fun_induction s'.fill gatesOpen with
  | case1 s' hw => exact h
  | case2 s' j rest hw hfree _ ih =>
    have hroom : s'.running.length < s'.capacity := by
      rw [Bool.and_eq_true, decide_eq_true_iff] at hfree
      exact hfree.1
    exact ih (h.turn (.start s' gatesOpen j rest hw hroom) (settle_ne_enqueue s' rest _ _ _ _ _ _))
  | case3 s' j rest hw hfull => exact h

theorem HandedIn.finishRunning (m : Nat) (h : HandedIn s js s') :
    HandedIn s js (finishRunning m s') := by
  induction m generalizing s' with
  | zero => exact h
  | succ m ih =>
    unfold Slots.finishRunning
    split
    · rename_i r rest hrunning
      split
      · exact h
      · exact ih (h.turn (.goOn s' true [] r rest hrunning)
          (settle_ne_enqueue s' s'.waiting _ _ _ _ _ _))
    · exact h

theorem HandedIn.drain (h : HandedIn s js s') (hstop : s'.stop = none) :
    HandedIn s js s'.drain := by
  have hnone : { s' with stop := none } = s' := by rw [← hstop]
  rw [Slots.drain, hnone]
  exact (h.finishRunning s'.running.length).fill

theorem HandedIn.enqueueAll {ks : List Job} (h : HandedIn s js s')
    (hks : ∀ j ∈ ks, ∀ k ∈ j.family s'.listener.isSome, k.IsOrdinary s'.quality) :
    HandedIn s (js ++ ks) (s'.enqueueAll ks) := by
  induction ks generalizing js s' with
  | nil =>
    rw [List.append_nil]
    exact h
  | cons k ks ih =>
    rw [List.append_cons]
    exact ih (h.job k (hks k (List.mem_cons_self ..)))
      fun i hi => hks i (List.mem_cons_of_mem k hi)

theorem HandedIn.release (h : HandedIn s js s') (id : Json → Bool) :
    HandedIn s js (s'.release id).1 := by
  unfold Slots.release
  split
  · exact h
  · rename_i before r after hfound
    exact (h.turn (.goOn s' false before r after (findRunning_eq_some hfound))
      (settle_ne_enqueue s' s'.waiting _ _ _ _ _ _)).fill

theorem HandedIn.cancel (h : HandedIn s js s') (id : Json → Bool) :
    HandedIn s js (s'.cancel id).1 := by
  unfold Slots.cancel
  split
  · rename_i before r after hfound
    exact (h.turn (.cancelRunning s' before r after (findRunning_eq_some hfound))
      (settle_ne_enqueue s' s'.waiting _ _ _ _ _ _)).fill
  · split
    · rename_i j hfind
      obtain ⟨front, back, hwaiting, herase⟩ := eraseP_of_find? hfind
      rw [herase]
      refine h.turn (.cancelWaiting s' front j back hwaiting) ?_
      intro k hsame
      have hended := congrArg (fun s => s.ended.length) hsame
      rw [List.length_append] at hended
      exact absurd hended (Nat.lt_succ_self s'.ended.length).ne'
    · exact h

theorem HandedIn.act {a : Action} (h : HandedIn s js s') (hs : s'.Balanced p q n hears 0)
    (ha : ∀ k ∈ Job.families hears a.jobs, k.IsOrdinary q) :
    HandedIn s (js ++ a.jobs) (s'.act a) := by
  cases a with
  | submit ks =>
    refine (h.enqueueAll ?_).fill
    intro j hj k hk
    rw [hs.listener] at hk
    rw [hs.quality]
    apply ha k
    rw [Job.families_eq_flatMap]
    exact List.mem_flatMap.mpr ⟨j, hj, hk⟩
  | release id => exact (List.append_nil js).symm ▸ h.release id
  | cancel id => exact (List.append_nil js).symm ▸ h.cancel id
  | drain => exact (List.append_nil js).symm ▸ h.drain hs.stop

/-- By induction on the actions. -/
theorem HandedIn.after {actions : List Action} (h : HandedIn s js s')
    (hs : s.Balanced p q n hears 0)
    (ha : ∀ k ∈ Job.families hears (actions.flatMap Action.jobs), k.IsOrdinary q) :
    HandedIn s (js ++ actions.flatMap Action.jobs) (s'.after actions) := by
  induction actions generalizing js s' with
  | nil => exact (List.append_nil js).symm ▸ h
  | cons a actions ih =>
    rw [List.flatMap_cons, Job.families_append] at ha
    rw [List.flatMap_cons, ← List.append_assoc]
    have hfirst := h.act (hs.turns h.turns) fun k hk => ha k (List.mem_append_left _ hk)
    exact ih hfirst fun k hk => ha k (List.mem_append_right _ hk)

/-- A job whose last step this is leaves its slot. -/
theorem length_running_settle (s : Slots) (before : List Running) (j : Job) (t : Transfer)
    (reply : ImageReply) (after : List Running) {step : Step} (hstep : step.Ends) :
    (s.settle before j t reply after step).running.length = (before ++ after).length := by
  obtain ⟨o, ho⟩ := hstep
  rw [settle, ho]
  exact length_running_finish _ j t.path o

theorem running_fill_open (hrunning : s.running = []) : (s.fill true).running = [] := by
  fun_induction s.fill true with
  | case1 s hw => exact hrunning
  | case2 s j rest hw hfree _ ih =>
    apply ih
    apply List.eq_nil_of_length_eq_zero
    rw [begin, length_running_settle _ _ _ _ _ _ (Transfer.start_ends _ _ _), List.append_nil]
    exact congrArg List.length hrunning
  | case3 s j rest hw hfull => exact hrunning

theorem Balanced.running_finishRunning (h : s.Balanced p q n hears 0) :
    (finishRunning s.running.length s).running = [] := by
  generalize hm : s.running.length = m
  induction m generalizing s with
  | zero => exact List.eq_nil_of_length_eq_zero hm
  | succ m ih =>
    have hgoes : s.isInterrupted = false := by rw [isInterrupted, h.stop]; rfl
    obtain ⟨r, rest, hrunning⟩ := List.exists_cons_of_length_eq_add_one hm
    unfold finishRunning
    rw [hrunning]
    dsimp only
    rw [if_neg (by rw [hgoes]; decide)]
    refine ih (h.goOn true (show s.running = [] ++ r :: rest from hrunning)) ?_
    rw [advance, length_running_settle _ _ _ _ _ _ (Transfer.resume_ends _ _ _ _), List.nil_append]
    rw [hrunning, List.length_cons] at hm
    exact Nat.succ.inj hm

/-- When all jobs have been waited for, none is left. -/
theorem Balanced.unfinished_drain (h : s.Balanced p q n hears 0) (hn : 0 < n) :
    s.drain.unfinished = 0 := by
  have hnone : { s with stop := none } = s := by rw [← h.stop]
  have hfinished := h.turns (turns_finishRunning s.running.length s)
  have hfilled := hfinished.turns (turns_fill _ true)
  have hrunning := running_fill_open h.running_finishRunning
  have hfull := hfinished.fill_full true
  rw [drain, hnone]
  rw [CanStart, hrunning, hfilled.capacity] at hfull
  have hwaiting : (fill (finishRunning s.running.length s) true).waiting = [] :=
    Classical.not_not.mp fun hwaits => hfull ⟨hwaits, hn⟩
  rw [unfinished, hwaiting, hrunning]
  rfl

/-- Without a cancellation nothing is cancelled. -/
theorem cancelled_settle {s : Slots} {before after : List Running} {t : Transfer}
    {reply : ImageReply} {step : Step} {id : Json} (hstep : step.Concludes id) :
    (s.settle before j t reply after step).cancelled = s.cancelled := by
  unfold settle
  split
  · rfl
  · rename_i o ho
    rw [cancelled, ended_finish, List.countP_append]
    rcases hstep o ho with rfl | ⟨cause, rfl⟩ | ⟨stop, rfl⟩
    · rfl
    · rfl
    · rfl

theorem countP_report (s : Slots) :
    (s.ended.filterMap report).countP (·.2.isSome) = s.ended.countP (·.2.isFailed) := by
  rw [List.countP_filterMap]
  apply List.countP_congr
  rintro ⟨j, o⟩ _
  cases o <;> rfl

end Slots

/-! ## Four images and one slot -/

namespace FourImages

open Slots

def isFourth : Json → Bool
  | .int n => n = 4
  | _ => false

/-- The second image stands at its gate, with the third to come after it, when the fourth, which
waits, is given up. -/
def lastGivenUp : List Action :=
  [.submit [job 1 "a" [], job 2 "b" [job 3 "c" []], job 4 "d" []], .cancel isFourth]

end FourImages

end GalleryScan
