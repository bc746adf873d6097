import GalleryScan.Proofs.Download.Safety

/-!
# What is counted of downloads

Jobs come and go in any order: they are submitted, from outside or when another job has ended, take
a slot, go on from a gate, end well or badly and are cancelled, in a slot or before they have one.
Each of these is one `Turn`, and every turn keeps the books:

> `s.submitted = s.unfinished + s.completed + s.cancelled`

No job that ends takes its slot with it, so slots are idle only where no job waits. File names may
be the same here and files be there or not: all that is asked of the jobs is that none of them ends
the program.
-/

set_option autoImplicit false

namespace GalleryScan

/-- The step does not end the program. -/
def Step.Stays (step : Step) : Prop := ∀ stop, step.progress ≠ .ended (.stopped stop)

namespace Transfer

variable {t : Transfer} {d : Disk}

/-! ## Downloads that do not end the program -/

/-- A path that is one is removed or refused, and neither ends the program. -/
theorem clear_stays (h : Disk.checkPath t.path = .ok ()) : (t.clear d).2.2 = none := by
  have hfault : ∀ fault, d.removeFile t.path = .error fault → fault.isRefusal = true := by
    intro fault hremove
    rw [Disk.removeFile, Disk.find, h] at hremove
    dsimp only [bind, Except.bind] at hremove
    cases hlocate : d.locate t.path with
    | error reason =>
      rw [hlocate] at hremove
      cases hremove
      rfl
    | ok spot =>
      rw [hlocate] at hremove
      cases spot with
      | free r =>
        cases hremove
        rfl
      | taken r e =>
        cases e with
        | folder =>
          cases hremove
          rfl
        | file content => cases hremove
  unfold clear
  split
  · rfl
  · rfl
  · rename_i fault _ hremove
    rw [if_pos (hfault _ hremove)]

theorem progress_endWithout (h : Disk.checkPath t.path = .ok ()) (o : Outcome) :
    (t.endWithout d o).progress = .ended o := by
  have hclear := clear_stays (d := d) h
  unfold endWithout
  split
  · rfl
  · rename_i hb
    rw [hb] at hclear
    cases hclear

theorem fail_stays (h : Disk.checkPath t.path = .ok ()) (cause : DownloadCause) :
    (t.fail d cause).Stays := by
  intro stop hstop
  rw [fail, progress_endWithout h] at hstop
  cases hstop

theorem receive_stays (h : Disk.checkPath t.path = .ok ()) (gatesOpen : Bool)
    (break? : Option Text) (file : Stream) (chunks : List Chunk) :
    (t.receive gatesOpen break? d file chunks).Stays := by
  fun_induction t.receive gatesOpen break? d file chunks with
  | case1 | case3 | case6 =>
    intro stop hstop
    cases hstop
  | case2 => exact fail_stays h _
  | case4 _ _ _ _ _ _ _ _ ih => exact ih
  | case5 _ _ _ _ ih => exact ih

theorem respond_stays (h : Disk.checkPath t.path = .ok ()) (gatesOpen : Bool) {reply : ImageReply}
    (hreply : reply.IsOrdinary) : (t.respond d gatesOpen reply).Stays := by
  unfold respond
  split
  · rename_i fault hanswer
    rw [if_neg (hreply fault hanswer)]
    exact fail_stays h _
  · split
    · exact fail_stays h _
    · split
      · exact fail_stays h _
      · dsimp only
        split
        · exact fail_stays h _
        · split
          · exact fail_stays h _
          · exact receive_stays h _ _ _ _

theorem start_stays (h : Disk.checkPath t.path = .ok ()) (gatesOpen : Bool) {server : ImageServer}
    (hserver : (server.replyTo t.url).IsOrdinary) : (t.start d gatesOpen server).Stays := by
  unfold start
  split
  · intro stop hstop
    cases hstop
  · dsimp only
    split
    · intro stop hstop
      cases hstop
    · exact respond_stays h _ hserver

theorem resume_stays (h : Disk.checkPath t.path = .ok ()) (gatesOpen : Bool) {reply : ImageReply}
    (hreply : reply.IsOrdinary) (gate : Gate) : (t.resume d gatesOpen reply gate).Stays := by
  cases gate with
  | answer => exact respond_stays h gatesOpen hreply
  | body rest break? file => exact receive_stays h gatesOpen break? file rest

/-- A download that is cancelled ends as one. -/
theorem progress_cancel (h : Disk.checkPath t.path = .ok ()) :
    (t.cancel d).progress = .ended .cancelled := progress_endWithout h .cancelled

end Transfer

theorem ImageServer.isOrdinary_replyTo {server : ImageServer}
    (h : ∀ a ∈ server, a.2.IsOrdinary) (url : Text) : (server.replyTo url).IsOrdinary := by
  rw [ImageServer.replyTo]
  generalize hfind : server.find? _ = found
  cases found with
  | none =>
    intro fault hfault
    cases hfault
  | some a => exact h a (List.mem_of_find?_eq_some hfind)

/-! ## Counting -/

/-- Has the job run to its end? -/
def Outcome.isCompleted : Outcome → Bool
  | saved | failed _ => true
  | cancelled | stopped _ => false

def Outcome.isFailed : Outcome → Bool
  | failed _ => true
  | _ => false

def Outcome.isCancelled : Outcome → Bool
  | cancelled => true
  | _ => false

/-- The file of the job has a form in bytes, and what is known of its reply is no wish to stop the
program. -/
structure Job.IsOrdinary (quality : Text) (j : Job) : Prop where
  encodable : (j.record.target quality).fileName.isEncodable = true
  reply : ∀ a, j.reply? = some a → a.2.IsOrdinary

namespace Slots

/-- The jobs that have neither ended nor been cancelled. -/
def unfinished (s : Slots) : Nat := s.waiting.length + s.running.length

def cancelled (s : Slots) : Nat := s.ended.countP (·.2.isCancelled)

/-- There is a job that waits and a slot for it. -/
def CanStart (s : Slots) : Prop := s.waiting ≠ [] ∧ s.running.length < s.capacity

/-- What is counted agrees with where the jobs are. -/
structure Accounted (concurrency : Int) (s : Slots) : Prop where
  inFlight : s.inFlight = s.running.length
  inFlight_le : (s.inFlight : Int) ≤ max 1 concurrency
  submitted : s.submitted = s.unfinished + s.completed + s.cancelled
  completed : s.completed = s.ended.countP (·.2.isCompleted)
  failed : s.failed = s.ended.countP (·.2.isFailed)
  failed_le : s.failed ≤ s.completed

/-- One thing that can happen to jobs at a time, whichever job it happens to. -/
inductive Turn : Slots → Slots → Prop where
  | submit (s : Slots) (j : Job)
      (ordinary : ∀ k ∈ j.family s.listener.isSome, k.IsOrdinary s.quality) :
      Turn s (s.enqueue j)
  | start (s : Slots) (gatesOpen : Bool) (j : Job) (rest : List Job) (next : s.waiting = j :: rest)
      (free : s.running.length < s.capacity) : Turn s (begin { s with waiting := rest } gatesOpen j)
  | goOn (s : Slots) (gatesOpen : Bool) (before : List Running) (r : Running)
      (after : List Running) (place : s.running = before ++ r :: after) :
      Turn s (s.advance gatesOpen before r after)
  | cancelRunning (s : Slots) (before : List Running) (r : Running) (after : List Running)
      (place : s.running = before ++ r :: after) : Turn s (s.cancelRunning before r after)
  | cancelWaiting (s : Slots) (front : List Job) (j : Job) (back : List Job)
      (place : s.waiting = front ++ j :: back) :
      Turn s { s with waiting := front ++ back, ended := s.ended ++ [(j, .cancelled)] }

/-- What any number of turns leads to. -/
inductive Turns (s : Slots) : Slots → Prop where
  | none : Turns s s
  | more {s' s'' : Slots} (before : Turns s s') (turn : Turn s' s'') : Turns s s''

theorem Turns.trans {s s' s'' : Slots} (h : Turns s s') (h' : Turns s' s'') : Turns s s'' := by
  induction h' with
  | none => exact h
  | more _ turn ih => exact .more ih turn

theorem Turn.turns {s s' : Slots} (h : Turn s s') : Turns s s' := .more .none h

/-! ## Keeping the books -/

/-- The books while a number of jobs is in hand, neither in a slot nor waiting nor at an end. -/
structure Balanced (p q : Text) (n : Nat) (hears : Bool) (hand : Nat) (s : Slots) : Prop where
  folder : s.folder = p
  quality : s.quality = q
  capacity : s.capacity = n
  listener : s.listener.isSome = hears
  check : Disk.checkPath p = .ok ()
  stop : s.stop = none
  server : ∀ a ∈ s.server, a.2.IsOrdinary
  waiting : ∀ j ∈ s.waiting, ∀ k ∈ j.family hears, k.IsOrdinary q
  running : ∀ r ∈ s.running, Disk.checkPath r.transfer.path = .ok () ∧ r.reply.IsOrdinary
    ∧ ∀ k ∈ r.job.family hears, k.IsOrdinary q
  room : s.running.length + hand ≤ n
  submitted : s.submitted = s.unfinished + hand + s.completed + s.cancelled
  completed : s.completed = s.ended.countP (·.2.isCompleted)
  failed : s.failed = s.ended.countP (·.2.isFailed)

variable {p q : Text} {n hand : Nat} {hears : Bool} {s : Slots} {j : Job}

theorem Balanced.enqueue (h : s.Balanced p q n hears hand)
    (hj : ∀ k ∈ j.family hears, k.IsOrdinary q) : Balanced p q n hears hand (s.enqueue j) := by
  refine ⟨h.folder, h.quality, h.capacity, h.listener, h.check, h.stop, ?_, ?_, h.running, h.room,
    ?_, h.completed, h.failed⟩
  · intro a ha
    rcases List.mem_append.mp ha with ha | ha
    · exact h.server a ha
    · exact (hj j (Job.mem_family_self hears j)).reply a (Option.mem_toList.mp ha)
  · intro k hk
    rcases List.mem_append.mp hk with hk | hk
    · exact h.waiting k hk
    · rwa [List.mem_singleton.mp hk]
  · have hsubmitted := h.submitted
    rw [unfinished] at hsubmitted ⊢
    show s.submitted + 1
      = (s.waiting ++ [j]).length + s.running.length + hand + s.completed + s.cancelled
    rw [List.length_append, List.length_singleton]
    omega

theorem Balanced.enqueueAll {js : List Job} (h : s.Balanced p q n hears hand)
    (hjs : ∀ j ∈ js, ∀ k ∈ j.family hears, k.IsOrdinary q) :
    Balanced p q n hears hand (s.enqueueAll js) := by
  induction js generalizing s with
  | nil => exact h
  | cons j js ih =>
    have hfirst := h.enqueue (hjs j (List.mem_cons_self ..))
    exact ih hfirst fun k hk => hjs k (List.mem_cons_of_mem j hk)

/-- What a job's end brings about comes from its family. -/
theorem ordinary_next (hj : ∀ k ∈ j.family true, k.IsOrdinary q) :
    ∀ i ∈ j.next, ∀ k ∈ i.family true, k.IsOrdinary q := by
  intro i hi k hk
  apply hj k
  rw [Job.family_eq, if_pos rfl, Job.families_eq_flatMap]
  exact List.mem_cons_of_mem j (List.mem_flatMap.mpr ⟨i, hi, hk⟩)

theorem Balanced.tell (h : s.Balanced p q n hears hand)
    (hj : ∀ k ∈ j.family hears, k.IsOrdinary q) (e : Option DownloadError) :
    Balanced p q n hears hand (s.tell j e) := by
  have hhears := h.listener
  unfold Slots.tell
  cases hlistener : s.listener with
  | none => exact h
  | some f =>
    rw [hlistener] at hhears
    subst hhears
    have htold : Balanced p q n true hand
        { s with told := s.told ++ [(j.record.id, e)], log := s.log ++ f j.record e } :=
      { h with }
    rw [hlistener] at htold
    exact htold.enqueueAll (ordinary_next hj)

theorem Balanced.takeName (h : s.Balanced p q n hears hand) (path : Text) :
    Balanced p q n hears hand (s.takeName path) := by
  have hlength : (s.takeName path).running.length = s.running.length := List.length_map ..
  refine { h with running := ?_, room := ?_, submitted := ?_ }
  · intro r hr
    obtain ⟨r', hr', rfl⟩ := List.mem_map.mp hr
    have hrunning := h.running r' hr'
    split <;> exact hrunning
  · rw [hlength]
    exact h.room
  · rw [unfinished, hlength]
    exact h.submitted

/-- The job in hand is put down among those that have ended. -/
theorem Balanced.leave (h : s.Balanced p q n hears 1) (j : Job) {o : Outcome}
    (ho : ∀ stop, o ≠ .stopped stop) : Balanced p q n hears 0 { s with
      completed := s.completed + o.isCompleted.toNat
      failed := s.failed + o.isFailed.toNat
      ended := s.ended ++ [(j, o)] } := by
  have hended : ∀ f : Outcome → Bool, (s.ended ++ [(j, o)]).countP (f ·.2)
      = s.ended.countP (f ·.2) + (f o).toNat := by
    intro f
    rw [List.countP_append, List.countP_singleton]
    cases f o <;> rfl
  -- The job counts once, unless it ends the program.
  have hone : o.isCompleted.toNat + o.isCancelled.toNat = 1 := by
    cases o with
    | saved | failed | cancelled => rfl
    | stopped stop => exact absurd rfl (ho stop)
  refine { h with room := Nat.le_of_succ_le h.room, submitted := ?_, completed := ?_, failed := ?_ }
  · have hsubmitted := h.submitted
    rw [cancelled] at hsubmitted ⊢
    show s.submitted = s.unfinished + 0 + (s.completed + o.isCompleted.toNat)
      + (s.ended ++ [(j, o)]).countP (·.2.isCancelled)
    rw [hended Outcome.isCancelled, hsubmitted]
    omega
  · rw [hended Outcome.isCompleted, h.completed]
  · rw [hended Outcome.isFailed, h.failed]

theorem Balanced.finish (h : s.Balanced p q n hears 1) (hj : ∀ k ∈ j.family hears, k.IsOrdinary q)
    (path : Text) {o : Outcome} (ho : ∀ stop, o ≠ .stopped stop) :
    Balanced p q n hears 0 (s.finish j path o) := by
  have hleft := h.leave j ho
  unfold Slots.finish
  cases o with
  | saved => exact hleft.tell hj none
  | failed e =>
    have hreported : Balanced p q n hears 0 { s.takeName path with
        completed := s.completed + 1
        failed := s.failed + 1
        ended := s.ended ++ [(j, .failed e)]
        log := s.log ++ [.line ("[!] " ++ e.message)] } := { hleft.takeName path with }
    exact hreported.tell hj (some e)
  | cancelled => exact hleft.takeName path
  | stopped stop => exact absurd rfl (ho stop)

/-- The job in hand is put down in a slot. -/
theorem Balanced.stand (h : s.Balanced p q n hears 1) {before after : List Running}
    (hrunning : s.running = before ++ after) {r : Running}
    (hpath : Disk.checkPath r.transfer.path = .ok ()) (hreply : r.reply.IsOrdinary)
    (hr : ∀ k ∈ r.job.family hears, k.IsOrdinary q) :
    Balanced p q n hears 0 { s with running := before ++ r :: after } := by
  have hlength : (before ++ r :: after).length = s.running.length + 1 := by
    rw [hrunning, List.length_append, List.length_append, List.length_cons, Nat.add_assoc]
  refine { h with running := ?_, room := ?_, submitted := ?_ }
  · intro r' hr'
    rcases List.mem_append.mp hr' with hr' | hr'
    · exact h.running r' (hrunning ▸ List.mem_append_left _ hr')
    rcases List.mem_cons.mp hr' with rfl | hr'
    · exact ⟨hpath, hreply, hr⟩
    · exact h.running r' (hrunning ▸ List.mem_append_right _ hr')
  · rw [hlength]
    exact h.room
  · rw [h.submitted, unfinished, unfinished, hlength]
    rfl

/-- The job in hand has made a step and is put down where that leads. -/
theorem Balanced.settle (h : s.Balanced p q n hears 1) {before after : List Running}
    (hrunning : s.running = before ++ after) {t : Transfer} (ht : Disk.checkPath t.path = .ok ())
    {reply : ImageReply} (hreply : reply.IsOrdinary) (hj : ∀ k ∈ j.family hears, k.IsOrdinary q)
    {step : Step} (hstep : step.Stays) :
    Balanced p q n hears 0 (s.settle before j t reply after step) := by
  have hmoved : Balanced p q n hears 1
      { s with log := s.log ++ step.log, disk := step.disk, running := before ++ after } := by
    rw [← hrunning]
    exact { h with }
  rw [Slots.settle]
  cases hprogress : step.progress with
  | standing gate => exact hmoved.stand (r := ⟨j, t, reply, gate⟩) rfl ht hreply hj
  | ended o => exact hmoved.finish hj t.path fun stop hstop => hstep stop (hstop ▸ hprogress)

/-! ## Every turn keeps the books -/

/-- The name of the file of a job that waits has a form in bytes, so it is a path in the folder. -/
theorem Balanced.checkPath (h : s.Balanced p q n hears hand) (hj : j ∈ s.waiting) :
    Disk.checkPath (s.transferOf j).path = .ok () := by
  have hordinary := h.waiting j hj j (Job.mem_family_self hears j)
  rw [Slots.transferOf, h.quality, h.folder]
  exact Disk.checkPath_join h.check hordinary.encodable (Record.null_notMem_fileName q j.record)

theorem Balanced.start_stays (h : s.Balanced p q n hears hand) (gatesOpen : Bool)
    (hj : j ∈ s.waiting) : ((s.transferOf j).start s.disk gatesOpen s.server).Stays :=
  Transfer.start_stays (h.checkPath hj) gatesOpen
    (ImageServer.isOrdinary_replyTo h.server (s.transferOf j).url)

theorem Balanced.start (h : s.Balanced p q n hears 0) (gatesOpen : Bool) {rest : List Job}
    (next : s.waiting = j :: rest) (free : s.running.length < s.capacity) :
    Balanced p q n hears 0 (begin { s with waiting := rest } gatesOpen j) := by
  have hwaits : j ∈ s.waiting := next ▸ List.mem_cons_self ..
  have htaken : Balanced p q n hears 1 { s with waiting := rest } := by
    refine { h with waiting := ?_, room := h.capacity ▸ free, submitted := ?_ }
    · intro k hk
      exact h.waiting k (next ▸ List.mem_cons_of_mem j hk)
    · have hsubmitted := h.submitted
      rw [unfinished, next, List.length_cons] at hsubmitted
      rw [hsubmitted, unfinished]
      show _ = rest.length + s.running.length + 1 + s.completed + s.cancelled
      omega
  have hreply := ImageServer.isOrdinary_replyTo h.server (s.transferOf j).url
  exact htaken.settle (List.append_nil _).symm (h.checkPath hwaits) hreply (h.waiting j hwaits)
    (h.start_stays gatesOpen hwaits)

section Slot

variable {before after : List Running} {r : Running}

theorem Balanced.take_running (h : s.Balanced p q n hears 0)
    (hr : s.running = before ++ r :: after) :
    Balanced p q n hears 1 { s with running := before ++ after } := by
  have hlength : s.running.length = (before ++ after).length + 1 := by
    rw [hr, List.length_append, List.length_append, List.length_cons, Nat.add_assoc]
  refine { h with running := ?_, room := ?_, submitted := ?_ }
  · intro r' hr'
    apply h.running r'
    rw [hr]
    exact List.append_sublist_append_left .. |>.mpr (List.sublist_cons_self r after) |>.mem hr'
  · rw [← hlength]
    exact h.room
  · rw [h.submitted, unfinished, hlength]
    rfl

theorem Balanced.resume_stays (h : s.Balanced p q n hears hand) (gatesOpen : Bool)
    (hr : r ∈ s.running) : (r.transfer.resume s.disk gatesOpen r.reply r.gate).Stays := by
  obtain ⟨hpath, hreply, _⟩ := h.running r hr
  exact Transfer.resume_stays hpath gatesOpen hreply r.gate

theorem Balanced.cancel_stays (h : s.Balanced p q n hears hand) (hr : r ∈ s.running) :
    (r.transfer.cancel s.disk).Stays := by
  obtain ⟨hpath, _, _⟩ := h.running r hr
  intro stop hstop
  rw [Transfer.progress_cancel hpath] at hstop
  cases hstop

/-- The job in a slot has made a step. -/
theorem Balanced.step (h : s.Balanced p q n hears 0) (hr : s.running = before ++ r :: after)
    {step : Step} (hstep : step.Stays) :
    Balanced p q n hears 0 (s.settle before r.job r.transfer r.reply after step) := by
  obtain ⟨hpath, hreply, hj⟩ := h.running r (hr ▸ List.mem_append_right _ (List.mem_cons_self ..))
  exact (h.take_running hr).settle rfl hpath hreply hj hstep

theorem Balanced.goOn (h : s.Balanced p q n hears 0) (gatesOpen : Bool)
    (hr : s.running = before ++ r :: after) :
    Balanced p q n hears 0 (s.advance gatesOpen before r after) :=
  h.step hr (h.resume_stays gatesOpen (hr ▸ List.mem_append_right _ (List.mem_cons_self ..)))

theorem Balanced.cancelRunning (h : s.Balanced p q n hears 0)
    (hr : s.running = before ++ r :: after) :
    Balanced p q n hears 0 (s.cancelRunning before r after) :=
  h.step hr (h.cancel_stays (hr ▸ List.mem_append_right _ (List.mem_cons_self ..)))

end Slot

theorem Balanced.cancelWaiting (h : s.Balanced p q n hears 0) {front back : List Job}
    (hw : s.waiting = front ++ j :: back) : Balanced p q n hears 0
      { s with waiting := front ++ back, ended := s.ended ++ [(j, .cancelled)] } := by
  refine { h with waiting := ?_, submitted := ?_, completed := ?_, failed := ?_ }
  · intro k hk
    have hsub : (front ++ back).Sublist (front ++ j :: back) :=
      (List.sublist_cons_self j back).append_left front
    exact h.waiting k (hw ▸ hsub.mem hk)
  · have hsubmitted := h.submitted
    rw [unfinished, cancelled, hw] at hsubmitted
    rw [unfinished, cancelled]
    simp only [List.length_append, List.length_cons, List.countP_append] at hsubmitted ⊢
    show s.submitted = _ + _ + s.completed + (_ + 1)
    omega
  · rw [List.countP_append, h.completed]
    rfl
  · rw [List.countP_append, h.failed]
    rfl

theorem Balanced.turn {s' : Slots} (h : s.Balanced p q n hears 0) (ht : Turn s s') :
    s'.Balanced p q n hears 0 := by
  cases ht with
  | submit j ordinary =>
    rw [h.listener, h.quality] at ordinary
    exact h.enqueue ordinary
  | start gatesOpen j rest next free => exact h.start gatesOpen next free
  | goOn gatesOpen before r after place => exact h.goOn gatesOpen place
  | cancelRunning before r after place => exact h.cancelRunning place
  | cancelWaiting front j back place => exact h.cancelWaiting place

/-- By induction on the turns. -/
theorem Balanced.turns {s' : Slots} (h : s.Balanced p q n hears 0) (ht : Turns s s') :
    s'.Balanced p q n hears 0 := by
  induction ht with
  | none => exact h
  | more _ turn ih => exact ih.turn turn

/-! ## What is done with slots is made of turns -/

theorem turns_enqueueAll (s : Slots) {js : List Job}
    (h : ∀ j ∈ js, ∀ k ∈ j.family s.listener.isSome, k.IsOrdinary s.quality) :
    Turns s (s.enqueueAll js) := by
  induction js generalizing s with
  | nil => exact .none
  | cons j js ih =>
    have hfirst : Turn s (s.enqueue j) := .submit s j (h j (List.mem_cons_self ..))
    exact hfirst.turns.trans (ih (s.enqueue j) fun k hk => h k (List.mem_cons_of_mem j hk))

theorem turns_fill (s : Slots) (gatesOpen : Bool) : Turns s (s.fill gatesOpen) := by
  fun_induction s.fill gatesOpen with
  | case1 s hw => exact .none
  | case2 s j rest hw hfree _ ih =>
    have hroom : s.running.length < s.capacity := by
      rw [Bool.and_eq_true, decide_eq_true_iff] at hfree
      exact hfree.1
    exact (Turn.start s gatesOpen j rest hw hroom).turns.trans ih
  | case3 s j rest hw hfull => exact .none

theorem turns_release (s : Slots) (id : Json → Bool) : Turns s (s.release id).1 := by
  unfold release
  split
  · exact .none
  · rename_i before r after hfound
    have hturn := Turn.goOn s false before r after (findRunning_eq_some hfound)
    exact hturn.turns.trans (turns_fill _ false)

theorem turns_cancel (s : Slots) (id : Json → Bool) : Turns s (s.cancel id).1 := by
  unfold cancel
  split
  · rename_i before r after hfound
    have hturn := Turn.cancelRunning s before r after (findRunning_eq_some hfound)
    exact hturn.turns.trans (turns_fill _ false)
  · split
    · rename_i j hfind
      obtain ⟨front, back, hwaiting, herase⟩ := eraseP_of_find? hfind
      rw [herase]
      exact (Turn.cancelWaiting s front j back hwaiting).turns
    · exact .none

theorem turns_finishRunning (m : Nat) (s : Slots) : Turns s (finishRunning m s) := by
  induction m generalizing s with
  | zero => exact .none
  | succ m ih =>
    unfold finishRunning
    split
    · rename_i r rest hrunning
      split
      · exact .none
      · exact (Turn.goOn s true [] r rest hrunning).turns.trans (ih _)
    · exact .none

theorem turns_drain (s : Slots) : Turns { s with stop := none } s.drain :=
  (turns_finishRunning s.running.length _).trans (turns_fill _ true)

theorem Balanced.turns_act (h : s.Balanced p q n hears 0) {a : Action}
    (ha : ∀ k ∈ Job.families hears a.jobs, k.IsOrdinary q) : Turns s (s.act a) := by
  cases a with
  | submit js =>
    refine Turns.trans (turns_enqueueAll s ?_) (turns_fill _ false)
    intro j hj k hk
    rw [h.listener] at hk
    rw [h.quality]
    apply ha k
    rw [Job.families_eq_flatMap]
    exact List.mem_flatMap.mpr ⟨j, hj, hk⟩
  | release id => exact turns_release s id
  | cancel id => exact turns_cancel s id
  | drain =>
    have hdrain := turns_drain s
    rwa [← h.stop] at hdrain

/-! ## Where the actions leave off nothing can start -/

/-- By induction along the starts: only when no job waits or no slot is free are there no more. -/
theorem Balanced.fill_full (h : s.Balanced p q n hears 0) (gatesOpen : Bool) :
    ¬ CanStart (s.fill gatesOpen) := by
  fun_induction s.fill gatesOpen with
  | case1 s hw => exact fun hcan => hcan.1 hw
  | case2 s j rest hw hfree _ ih =>
    have hroom : s.running.length < s.capacity := by
      rw [Bool.and_eq_true, decide_eq_true_iff] at hfree
      exact hfree.1
    exact ih (h.start gatesOpen hw hroom)
  | case3 s j rest hw hfull =>
    have hgoes : s.isInterrupted = false := by rw [isInterrupted, h.stop]; rfl
    rintro ⟨_, hroom⟩
    rw [hgoes, Bool.not_false, Bool.and_true, decide_eq_true_iff] at hfull
    exact hfull hroom

theorem Balanced.act_full (h : s.Balanced p q n hears 0) {a : Action}
    (ha : ∀ k ∈ Job.families hears a.jobs, k.IsOrdinary q) (hfull : ¬ s.CanStart) :
    ¬ CanStart (s.act a) := by
  cases a with
  | submit js =>
    refine Balanced.fill_full (h.enqueueAll ?_) false
    intro j hj k hk
    apply ha k
    rw [Job.families_eq_flatMap]
    exact List.mem_flatMap.mpr ⟨j, hj, hk⟩
  | release id =>
    show ¬ CanStart (s.release id).1
    unfold release
    split
    · exact hfull
    · rename_i before r after hfound
      exact (h.goOn false (findRunning_eq_some hfound)).fill_full false
  | cancel id =>
    show ¬ CanStart (s.cancel id).1
    unfold cancel
    split
    · rename_i before r after hfound
      exact (h.cancelRunning (findRunning_eq_some hfound)).fill_full false
    · split
      · rename_i j hfind
        -- One job fewer waits, so either none is left or the slots were full before.
        rintro ⟨hwaits, hroom⟩
        refine hfull ⟨?_, hroom⟩
        rintro hnone
        rw [hnone] at hfind
        cases hfind
      · exact hfull
  | drain =>
    have hnone : { s with stop := none } = s := by rw [← h.stop]
    show ¬ CanStart s.drain
    rw [Slots.drain, hnone]
    exact (h.turns (turns_finishRunning s.running.length s)).fill_full true

/-- By induction on the actions. -/
theorem Balanced.after {actions : List Action} (h : s.Balanced p q n hears 0)
    (ha : ∀ k ∈ Job.families hears (actions.flatMap Action.jobs), k.IsOrdinary q)
    (hfull : ¬ s.CanStart) : Turns s (s.after actions) ∧ ¬ CanStart (s.after actions) := by
  induction actions generalizing s with
  | nil => exact ⟨.none, hfull⟩
  | cons a actions ih =>
    rw [List.flatMap_cons, Job.families_append] at ha
    have hfirst : ∀ k ∈ Job.families hears a.jobs, k.IsOrdinary q :=
      fun k hk => ha k (List.mem_append_left _ hk)
    have hturns := h.turns_act hfirst
    obtain ⟨hrest, hend⟩ := ih (h.turns hturns) (fun k hk => ha k (List.mem_append_right _ hk))
      (h.act_full hfirst hfull)
    exact ⟨hturns.trans hrest, hend⟩

/-! ## The books of every run -/

theorem Balanced.accounted {concurrency : Int}
    (h : s.Balanced p q (capacityFor concurrency) hears 0) : s.Accounted concurrency := by
  have hcapacity : (capacityFor concurrency : Int) = max 1 concurrency := by
    rw [capacityFor]
    omega
  have hroom := h.room
  refine ⟨rfl, ?_, h.submitted, h.completed, h.failed, ?_⟩
  · rw [← hcapacity, inFlight]
    omega
  · rw [h.failed, h.completed]
    apply List.countP_mono_left
    rintro ⟨j, o⟩ _ hfailed
    cases o with
    | failed e => rfl
    | _ => cases hfailed

theorem balanced_empty {hasBars : Bool} {concurrency : Int}
    (listener : Option (Record → Option DownloadError → Log)) {server : ImageServer} {disk : Disk}
    (hfolder : Disk.checkPath p = .ok ()) (hserver : ∀ a ∈ server, a.2.IsOrdinary) :
    Balanced p q (capacityFor concurrency) listener.isSome 0
      (empty p q hasBars concurrency listener server disk) := by
  refine ⟨rfl, rfl, rfl, rfl, hfolder, rfl, hserver, ?_, ?_, Nat.zero_le _, rfl, rfl, rfl⟩
  · intro j hj
    cases hj
  · intro r hr
    cases hr

end Slots

/-! ## Four images and a number of slots below one -/

namespace FourImages

open Slots

end FourImages

end GalleryScan
