import GalleryScan.Proofs.Download.Quiet

/-!
# Downloads do not read the log

What has been said is for the user alone. Whatever it is, the same jobs start, go on and end in the
same way, and the same is said of them behind it:

> `Says drain s said`, that is, `drain { s with log } = { s.drain with log := log ++ said }`

Among what is said are the requests. They are requests for images, if the listener sends none.
-/

set_option autoImplicit false

namespace GalleryScan

namespace Log

/-- Nothing is asked for but images. -/
def AsksForImages (log : Log) : Prop := ∀ r ∈ log.requests, ∃ t : Transfer, r = t.request

theorem asksForImages_of_nil {log : Log} (h : log.requests = []) : log.AsksForImages := by
  intro r hr
  rw [h] at hr
  cases hr

theorem AsksForImages.append {l m : Log} (h : l.AsksForImages) (h' : m.AsksForImages) :
    AsksForImages (l ++ m) := by
  intro r hr
  rw [requests_append] at hr
  exact (List.mem_append.mp hr).elim (h r) (h' r)

end Log

theorem Transfer.asksForImages_start (t : Transfer) (d : Disk) (gatesOpen : Bool)
    (server : ImageServer) : (t.start d gatesOpen server).log.AsksForImages := by
  intro r hr
  rw [t.requests_start] at hr
  split at hr
  · cases hr
  · exact ⟨t, List.mem_singleton.mp hr⟩

namespace Slots

/-- The listener sends no requests. -/
def HearsSilently (s : Slots) : Prop :=
  ∀ f, s.listener = some f → ∀ r e, (f r e).requests = []

/-- Whatever was said before, `f` adds this to it, and does otherwise the same. -/
def Says (f : Slots → Slots) (s : Slots) (said : Log) : Prop :=
  ∀ log, f { s with log } = { f s with log := log ++ said }

variable {f g : Slots → Slots} {s : Slots} {said more : Log}

theorem Says.log (h : Says f s said) : (f s).log = s.log ++ said := congrArg Slots.log (h s.log)

theorem Says.trans (h : Says f s said) (h' : Says g (f s) more) :
    Says (fun s => g (f s)) s (said ++ more) := by
  intro log
  show g (f { s with log }) = _
  rw [h log, h' (log ++ said), List.append_assoc]

/-! ## The end of a job -/

section Listener

variable {j : Job} {e : Option DownloadError}

theorem tell_of_none (h : s.listener = none) : s.tell j e = s := by
  rw [tell, h]

theorem tell_of_some {hear : Record → Option DownloadError → Log} (h : s.listener = some hear) :
    s.tell j e = enqueueAll
      { s with told := s.told ++ [(j.record.id, e)], log := s.log ++ hear j.record e } j.next := by
  rw [tell, h]

end Listener

/-- What the listener adds to the log when a job has ended. -/
def remark (s : Slots) (j : Job) (e : Option DownloadError) : Log :=
  match s.listener with
  | none => []
  | some hear => hear j.record e

/-- What is said when a job has come to this. -/
def farewell (s : Slots) (j : Job) : Progress → Log
  | .ended .saved => s.remark j none
  | .ended (.failed e) => .line ("[!] " ++ e.message) :: s.remark j (some e)
  | _ => []

theorem HearsSilently.requests_remark (h : s.HearsSilently) (j : Job) (e : Option DownloadError) :
    (s.remark j e).requests = [] := by
  unfold remark
  split
  · rfl
  · rename_i hear hl
    exact h hear hl _ _

theorem HearsSilently.requests_farewell (h : s.HearsSilently) (j : Job) (p : Progress) :
    (s.farewell j p).requests = [] := by
  unfold farewell
  split
  · exact h.requests_remark j none
  · exact h.requests_remark j _
  · rfl

theorem enqueueAll_log (s : Slots) (js : List Job) (log : Log) :
    enqueueAll { s with log } js = { s.enqueueAll js with log } := by
  induction js generalizing s with
  | nil => rfl
  | cons j js ih => exact ih (s.enqueue j)

theorem says_tell (s : Slots) (j : Job) (e : Option DownloadError) :
    Says (·.tell j e) s (s.remark j e) := by
  intro log
  dsimp only
  rcases Option.eq_none_or_eq_some s.listener with hl | ⟨hear, hl⟩
  · have hremark : s.remark j e = [] := by rw [remark, hl]
    rw [tell_of_none (s := { s with log }) hl, tell_of_none hl, hremark, List.append_nil]
  · have hremark : s.remark j e = hear j.record e := by rw [remark, hl]
    rw [tell_of_some (s := { s with log }) hl, tell_of_some hl, hremark]
    exact enqueueAll_log
      { s with told := s.told ++ [(j.record.id, e)], log := s.log ++ hear j.record e } _ _

theorem says_finish (s : Slots) (j : Job) (path : Text) (o : Outcome) :
    Says (·.finish j path o) s (s.farewell j (.ended o)) := by
  intro log
  cases o with
  | saved =>
    exact says_tell { s with
      ended := s.ended ++ [(j, .saved)]
      completed := s.completed + 1 } j none log
  | failed e =>
    have htell := says_tell { s.takeName path with
      ended := s.ended ++ [(j, .failed e)]
      completed := s.completed + 1
      failed := s.failed + 1
      log := s.log ++ [.line ("[!] " ++ e.message)] } j (some e)
      (log ++ [.line ("[!] " ++ e.message)])
    rw [List.append_assoc, List.singleton_append] at htell
    exact htell
  | cancelled =>
    dsimp only [farewell]
    rw [List.append_nil]
    rfl
  | stopped =>
    dsimp only [farewell]
    rw [List.append_nil]
    rfl

theorem says_settle (s : Slots) (before : List Running) (j : Job) (t : Transfer)
    (reply : ImageReply) (after : List Running) (step : Step) :
    Says (·.settle before j t reply after step) s (step.log ++ s.farewell j step.progress) := by
  intro log
  dsimp only [settle]
  cases step.progress with
  | standing gate =>
    dsimp only [farewell]
    rw [List.append_nil]
  | ended o =>
    dsimp only
    rw [← List.append_assoc]
    exact says_finish { s with
      log := s.log ++ step.log
      disk := step.disk
      running := before ++ after } j t.path o (log ++ step.log)

/-! ## What stays as it is -/

/-- The second state is for the same downloads and has the same listener. -/
structure Keeps (s s' : Slots) : Prop where
  transferOf : s'.transferOf = s.transferOf
  listener : s'.listener = s.listener

theorem Keeps.refl (s : Slots) : Keeps s s := ⟨rfl, rfl⟩

theorem Keeps.trans {s s' s'' : Slots} (h : Keeps s s') (h' : Keeps s' s'') : Keeps s s'' :=
  ⟨h'.transferOf.trans h.transferOf, h'.listener.trans h.listener⟩

theorem Keeps.silent {s s' : Slots} (h : Keeps s s') (hs : s.HearsSilently) :
    s'.HearsSilently := fun hear hl => hs hear (h.listener ▸ hl)

theorem keeps_enqueueAll (s : Slots) (js : List Job) : Keeps s (s.enqueueAll js) := by
  induction js generalizing s with
  | nil => exact .refl s
  | cons j js ih => exact (show Keeps s (s.enqueue j) from ⟨rfl, rfl⟩).trans (ih _)

theorem keeps_tell (s : Slots) (j : Job) (e : Option DownloadError) : Keeps s (s.tell j e) := by
  unfold tell
  split
  · exact .refl s
  · refine Keeps.trans ?_ (keeps_enqueueAll _ _)
    exact ⟨rfl, rfl⟩

theorem keeps_finish (s : Slots) (j : Job) (path : Text) (o : Outcome) :
    Keeps s (s.finish j path o) := by
  cases o with
  | saved =>
    refine Keeps.trans ?_ (keeps_tell _ j none)
    exact ⟨rfl, rfl⟩
  | failed e =>
    refine Keeps.trans ?_ (keeps_tell _ j (some e))
    exact ⟨rfl, rfl⟩
  | cancelled | stopped => exact ⟨rfl, rfl⟩

theorem keeps_settle (s : Slots) (before : List Running) (j : Job) (t : Transfer)
    (reply : ImageReply) (after : List Running) (step : Step) :
    Keeps s (s.settle before j t reply after step) := by
  unfold settle
  split
  · exact ⟨rfl, rfl⟩
  · refine Keeps.trans ?_ (keeps_finish _ j _ _)
    exact ⟨rfl, rfl⟩

/-! ## The waiting jobs -/

section Waiting

variable {gatesOpen : Bool} {j : Job} {rest : List Job}

theorem fill_nil (hw : s.waiting = []) : s.fill gatesOpen = s := by
  rw [fill]
  split
  · rfl
  · rename_i hwaits
    cases hw.symm.trans hwaits

theorem fill_cons (hw : s.waiting = j :: rest)
    (hfree : (decide (s.running.length < s.capacity) && !s.isInterrupted) = true) :
    s.fill gatesOpen = (begin { s with waiting := rest } gatesOpen j).fill gatesOpen := by
  rw [fill]
  split
  · rename_i hnone
    cases hw.symm.trans hnone
  · rename_i hwaits
    cases hw.symm.trans hwaits
    rw [if_pos hfree]

theorem fill_full (hfull : ¬ (decide (s.running.length < s.capacity) && !s.isInterrupted) = true) :
    s.fill gatesOpen = s := by
  rw [fill]
  split
  · rfl
  · rw [if_neg hfull]

end Waiting

/-! ## All jobs are waited for -/

/-- There is something that `f` says whatever was said before, and unless the listener asks for
more, it asks for nothing but images. -/
structure Speaks (f : Slots → Slots) (s : Slots) : Prop where
  adds : ∃ said, Says f s said ∧ (s.HearsSilently → said.AsksForImages)
  keeps : Keeps s (f s)

theorem speaks_of_log (hf : ∀ log, f { s with log } = { f s with log }) (hk : Keeps s (f s)) :
    Speaks f s := by
  refine ⟨⟨[], ?_, fun _ => Log.asksForImages_of_nil rfl⟩, hk⟩
  intro log
  rw [List.append_nil]
  exact hf log

theorem speaks_nothing (s : Slots) : Speaks id s := speaks_of_log (fun _ => rfl) (.refl s)

/-- What is said counts only at the state itself, with any log. -/
theorem Speaks.congr (h : Speaks g s) (heq : ∀ log, f { s with log } = g { s with log }) :
    Speaks f s := by
  have hs : f s = g s := heq s.log
  obtain ⟨said, hsaid, hasks⟩ := h.adds
  refine ⟨⟨said, ?_, hasks⟩, hs ▸ h.keeps⟩
  intro log
  rw [heq log, hs]
  exact hsaid log

theorem Speaks.trans (h : Speaks f s) (h' : Speaks g (f s)) : Speaks (fun s => g (f s)) s := by
  obtain ⟨said, hsaid, hasks⟩ := h.adds
  obtain ⟨more, hmore, hasks'⟩ := h'.adds
  exact ⟨⟨said ++ more, hsaid.trans hmore, fun hs => (hasks hs).append (hasks' (h.keeps.silent hs))⟩,
    h.keeps.trans h'.keeps⟩

/-- Only the step may ask for something, and only for an image. -/
theorem speaks_settle (before : List Running) (j : Job) (t : Transfer) (reply : ImageReply)
    (after : List Running) {step : Step} (hstep : step.log.AsksForImages) :
    Speaks (·.settle before j t reply after step) s :=
  ⟨⟨_, says_settle s before j t reply after step,
    fun hs => hstep.append (Log.asksForImages_of_nil (hs.requests_farewell j step.progress))⟩,
    keeps_settle s before j t reply after step⟩

theorem speaks_advance (s : Slots) (gatesOpen : Bool) (before : List Running) (r : Running)
    (after : List Running) : Speaks (·.advance gatesOpen before r after) s := by
  have hasks : (r.transfer.resume s.disk gatesOpen r.reply r.gate).log.AsksForImages :=
    Log.asksForImages_of_nil (Transfer.requests_resume _ _ _ _ _)
  exact (speaks_settle before r.job r.transfer r.reply after hasks).congr fun _ => rfl

theorem speaks_begin (s : Slots) (gatesOpen : Bool) (j : Job) : Speaks (·.begin gatesOpen j) s := by
  have hasks := (s.transferOf j).asksForImages_start s.disk gatesOpen s.server
  let reply := s.server.replyTo (s.transferOf j).url
  exact (speaks_settle s.running j (s.transferOf j) reply [] hasks).congr fun _ => rfl

/-- By induction along the starts. -/
theorem speaks_fill (s : Slots) (gatesOpen : Bool) : Speaks (·.fill gatesOpen) s := by
  fun_induction s.fill gatesOpen with
  | case1 s hw => exact (speaks_nothing s).congr fun log => fill_nil (s := { s with log }) hw
  | case2 s j rest hw hfree _ ih =>
    have htake : Speaks (fun s => { s with waiting := rest }) s :=
      speaks_of_log (fun _ => rfl) ⟨rfl, rfl⟩
    have hbegin := htake.trans (speaks_begin { s with waiting := rest } gatesOpen j)
    exact (hbegin.trans ih).congr fun log => fill_cons (s := { s with log }) hw hfree
  | case3 s j rest hw hfull =>
    exact (speaks_nothing s).congr fun log => fill_full (s := { s with log }) hfull

/-- By induction on the number of jobs. -/
theorem speaks_finishRunning (n : Nat) (s : Slots) : Speaks (finishRunning n) s := by
  induction n generalizing s with
  | zero => exact speaks_nothing s
  | succ n ih =>
    cases hrunning : s.running with
    | nil =>
      refine (speaks_nothing s).congr fun log => ?_
      rw [finishRunning, show ({ s with log } : Slots).running = [] from hrunning]
      rfl
    | cons r rest =>
      cases hgoes : s.isInterrupted with
      | true =>
        refine (speaks_nothing s).congr fun log => ?_
        rw [finishRunning, show ({ s with log } : Slots).running = r :: rest from hrunning]
        exact if_pos hgoes
      | false =>
        refine ((speaks_advance s true [] r rest).trans (ih _)).congr fun log => ?_
        rw [finishRunning, show ({ s with log } : Slots).running = r :: rest from hrunning]
        exact if_neg (Bool.eq_false_iff.mp hgoes)

theorem speaks_drain (s : Slots) : Speaks drain s := by
  have hanew : Speaks (fun s => { s with stop := none }) s :=
    speaks_of_log (fun _ => rfl) ⟨rfl, rfl⟩
  have hfinish := hanew.trans (speaks_finishRunning s.running.length { s with stop := none })
  exact (hfinish.trans (speaks_fill _ true)).congr fun _ => rfl

end Slots

end GalleryScan
