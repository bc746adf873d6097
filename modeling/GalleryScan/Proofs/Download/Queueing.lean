import GalleryScan.Proofs.Download.Echoing
import GalleryScan.Proofs.Download.Working

/-!
# First come, first served

A job joins the others behind all that wait, whether it is handed in from outside or submitted by
the listener, just when a slot has become free. From there it takes a slot, when it is the first,
or is cancelled and leaves. Each such `Passage` is written down as it happens, and whatever happens,
in between and to the jobs in slots, the jobs that have started and those that wait are the
submitted ones in their order, without those that have left:

> `(starts ps ++ s'.waiting).Sublist (s.waiting ++ submissions ps)`

A job asks for its image when it starts or not at all. So the images are asked for in that order
too, whichever of the jobs end first.
-/

set_option autoImplicit false

namespace GalleryScan

/-- What becomes of a job until it has a slot. -/
inductive Passage where
  /-- It is handed in from outside. -/
  | handedIn (j : Job)
  /-- It is submitted by the listener, when another one has ended. -/
  | brought (j : Job)
  | started (j : Job)
  /-- It is cancelled while it waits. -/
  | left (j : Job)

namespace Passage

def handedIn? : Passage → Option Job
  | handedIn j => some j
  | _ => none

def brought? : Passage → Option Job
  | brought j => some j
  | _ => none

def submitted? : Passage → Option Job
  | handedIn j | brought j => some j
  | _ => none

def started? : Passage → Option Job
  | started j => some j
  | _ => none

def left? : Passage → Option Job
  | left j => some j
  | _ => none

/-- The jobs that are handed in from outside. -/
def handedInOf (ps : List Passage) : List Job := ps.filterMap handedIn?

/-- The jobs that the listener submits. -/
def broughtOf (ps : List Passage) : List Job := ps.filterMap brought?

/-- All jobs that are submitted. -/
def submissions (ps : List Passage) : List Job := ps.filterMap submitted?

def starts (ps : List Passage) : List Job := ps.filterMap started?

def leavings (ps : List Passage) : List Job := ps.filterMap left?

section Append

variable (ps qs : List Passage)

theorem handedInOf_append : handedInOf (ps ++ qs) = handedInOf ps ++ handedInOf qs :=
  List.filterMap_append ..

theorem broughtOf_append : broughtOf (ps ++ qs) = broughtOf ps ++ broughtOf qs :=
  List.filterMap_append ..

theorem submissions_append : submissions (ps ++ qs) = submissions ps ++ submissions qs :=
  List.filterMap_append ..

theorem starts_append : starts (ps ++ qs) = starts ps ++ starts qs := List.filterMap_append ..

theorem leavings_append : leavings (ps ++ qs) = leavings ps ++ leavings qs :=
  List.filterMap_append ..

end Append

/-- Some jobs start, and then the listener submits others. -/
theorem passages_of (taken js : List Job) :
    let ps := taken.map started ++ js.map brought
    starts ps = taken ∧ leavings ps = [] ∧ submissions ps = js ∧ broughtOf ps = js
      ∧ handedInOf ps = [] := by
  simp [starts, leavings, submissions, broughtOf, handedInOf, List.filterMap_map, Function.comp_def,
    started?, left?, submitted?, brought?, handedIn?]

end Passage

namespace Slots

open Passage

/-- The jobs that the listener submits when a job has ended like this. -/
def followers (hears : Bool) (x : Job × Outcome) : List Job :=
  match x.2 with
  | .saved | .failed _ => if hears then x.1.next else []
  | .cancelled | .stopped _ => []

/-- The jobs that have ended when a job has come to this. -/
def ending (j : Job) : Progress → List (Job × Outcome)
  | .standing _ => []
  | .ended o => [(j, o)]

/-- The jobs that the listener submits when a job has come to this. -/
def brings (s : Slots) (j : Job) (p : Progress) : List Passage :=
  ((ending j p).flatMap (followers s.listener.isSome)).map .brought

/-- One thing that can happen, with the jobs that pass on by it: a job is submitted, takes a slot,
goes on from its gate or is cancelled, in a slot or before it has one. What had ended the program
may be over. -/
inductive Happens : Slots → List Passage → Slots → Prop where
  | handIn (s : Slots) (j : Job) : Happens s [.handedIn j] (s.enqueue j)
  | start (s : Slots) (gatesOpen : Bool) (j : Job) (rest : List Job) (next : s.waiting = j :: rest)
      (free : s.running.length < s.capacity) :
      Happens s (.started j :: s.brings j
          ((s.transferOf j).start s.disk gatesOpen s.server).progress)
        (begin { s with waiting := rest } gatesOpen j)
  | goOn (s : Slots) (gatesOpen : Bool) (before : List Running) (r : Running)
      (after : List Running) (place : s.running = before ++ r :: after) :
      Happens s (s.brings r.job (r.transfer.resume s.disk gatesOpen r.reply r.gate).progress)
        (s.advance gatesOpen before r after)
  | cancelRunning (s : Slots) (before : List Running) (r : Running) (after : List Running)
      (place : s.running = before ++ r :: after) :
      Happens s (s.brings r.job (r.transfer.cancel s.disk).progress)
        (s.cancelRunning before r after)
  | leave (s : Slots) (front : List Job) (j : Job) (back : List Job)
      (place : s.waiting = front ++ j :: back) :
      Happens s [.left j]
        { s with waiting := front ++ back, ended := s.ended ++ [(j, .cancelled)] }
  | anew (s : Slots) : Happens s [] { s with stop := none }

/-- What happens, one thing after the other. -/
inductive History (s : Slots) : List Passage → Slots → Prop where
  | start : History s [] s
  | more {ps qs : List Passage} {s' s'' : Slots} (before : History s ps s')
      (next : Happens s' qs s'') : History s (ps ++ qs) s''

variable {s s' s'' : Slots} {ps qs : List Passage} {j : Job}

/-! ## The law of the queue -/

/-- The jobs that have ended or have a slot. -/
def begun (s : Slots) : List Job := s.ended.map Prod.fst ++ s.running.map Running.job

/-- From one state to another the jobs have had their turn: those that have started and those that
wait are in the order in which they were submitted, and none is missing but those that have left. -/
structure InTurn (s : Slots) (ps : List Passage) (s' : Slots) : Prop where
  order : (starts ps ++ s'.waiting).Sublist (s.waiting ++ submissions ps)
  places : (starts ps ++ s'.waiting ++ leavings ps).Perm (s.waiting ++ submissions ps)
  /-- Who starts is in a slot or has ended since, and who leaves has ended. -/
  passed : (s'.begun).Perm (s.begun ++ starts ps ++ leavings ps)
  /-- Who leaves is cancelled. -/
  cancelled : ∀ j ∈ leavings ps, (j, .cancelled) ∈ s'.ended
  ended : s.ended <+: s'.ended
  /-- The listener has submitted what comes after the jobs that have ended, and nothing else. -/
  brought : s'.ended.flatMap (followers s.listener.isSome)
    = s.ended.flatMap (followers s.listener.isSome) ++ broughtOf ps
  /-- Only who starts asks, in this order. -/
  requests : s.HearsSilently → ∃ asking : List Job, asking.Sublist (starts ps)
    ∧ s'.log.requests = s.log.requests ++ asking.map fun j => (s.transferOf j).request
  keeps : Keeps s s'

theorem places_trans {starts starts' left left' waiting waiting' waiting'' new new' : Multiset Job}
    (h : starts + waiting' + left = waiting + new)
    (h' : starts' + waiting'' + left' = waiting' + new') :
    starts + starts' + waiting'' + (left + left') = waiting + (new + new') :=
  calc starts + starts' + waiting'' + (left + left')
      = starts + left + (starts' + waiting'' + left') := by abel
    _ = starts + waiting' + left + new' := by rw [h']; abel
    _ = waiting + (new + new') := by rw [h, add_assoc]

theorem InTurn.refl (s : Slots) : InTurn s [] s where
  order := (List.append_nil s.waiting).symm ▸ List.Sublist.refl _
  places := by
    rw [show leavings [] = [] from rfl, List.append_nil]
    exact (List.append_nil s.waiting).symm ▸ List.Perm.refl _
  passed := by
    rw [show starts [] = [] from rfl, show leavings [] = [] from rfl, List.append_nil,
      List.append_nil]
  cancelled := List.forall_mem_nil _
  ended := List.prefix_rfl
  brought := (List.append_nil _).symm
  requests := fun _ => ⟨[], List.nil_sublist _, (List.append_nil _).symm⟩
  keeps := .refl s

theorem InTurn.trans (h : InTurn s ps s') (h' : InTurn s' qs s'') : InTurn s (ps ++ qs) s'' where
  order := by
    rw [starts_append, submissions_append, List.append_assoc, ← List.append_assoc s.waiting]
    have hlater := (h'.order).append_left (starts ps)
    rw [← List.append_assoc (starts ps) s'.waiting] at hlater
    exact hlater.trans (h.order.append_right (submissions qs))
  places := by
    have hfirst := Multiset.coe_eq_coe.mpr h.places
    have hlater := Multiset.coe_eq_coe.mpr h'.places
    rw [starts_append, submissions_append, leavings_append]
    rw [← Multiset.coe_eq_coe]
    simp only [← Multiset.coe_add] at hfirst hlater ⊢
    exact places_trans hfirst hlater
  passed := by
    have hfirst := Multiset.coe_eq_coe.mpr h.passed
    have hlater := Multiset.coe_eq_coe.mpr h'.passed
    rw [starts_append, leavings_append, ← Multiset.coe_eq_coe]
    simp only [← Multiset.coe_add] at hfirst hlater ⊢
    rw [hlater, hfirst]
    abel
  cancelled := by
    intro j hj
    rw [leavings_append] at hj
    rcases List.mem_append.mp hj with hj | hj
    · exact h'.ended.mem (h.cancelled j hj)
    · exact h'.cancelled j hj
  ended := h.ended.trans h'.ended
  brought := by
    have hlater := h'.brought
    rw [h.keeps.listener] at hlater
    rw [hlater, h.brought, broughtOf_append, List.append_assoc]
  requests := by
    intro hs
    obtain ⟨asking, hasking, hlog⟩ := h.requests hs
    obtain ⟨more, hmore, hlog'⟩ := h'.requests (h.keeps.silent hs)
    refine ⟨asking ++ more, ?_, ?_⟩
    · rw [starts_append]
      exact hasking.append hmore
    · rw [hlog', hlog, h.keeps.transferOf, List.map_append, List.append_assoc]
  keeps := h.keeps.trans h'.keeps

/-! ## What a step leaves to those that wait -/

theorem waiting_tell (s : Slots) (j : Job) (e : Option DownloadError) :
    (s.tell j e).waiting = s.waiting ++ if s.listener.isSome then j.next else [] := by
  unfold tell
  split
  · rename_i hl
    rw [hl]
    exact (List.append_nil _).symm
  · rename_i hear hl
    rw [waiting_enqueueAll, hl]
    rfl

theorem waiting_finish (s : Slots) (j : Job) (path : Text) (o : Outcome) :
    (s.finish j path o).waiting = s.waiting ++ followers s.listener.isSome (j, o) := by
  cases o with
  | saved => exact waiting_tell _ j none
  | failed e => exact waiting_tell _ j (some e)
  | cancelled | stopped => exact (List.append_nil _).symm

theorem jobs_takeName (s : Slots) (path : Text) :
    (s.takeName path).running.map Running.job = s.running.map Running.job := by
  rw [takeName, List.map_map]
  apply List.map_congr_left
  intro r _
  rw [Function.comp_apply]
  split <;> rfl

theorem jobs_finish (s : Slots) (j : Job) (path : Text) (o : Outcome) :
    (s.finish j path o).running.map Running.job = s.running.map Running.job := by
  cases o with
  | saved => exact congrArg (List.map Running.job) (running_tell _ j none)
  | failed e =>
    exact (congrArg (List.map Running.job) (running_tell _ j (some e))).trans (jobs_takeName _ path)
  | cancelled => exact jobs_takeName _ path
  | stopped => rfl

section Step

variable (before : List Running) (j : Job) (t : Transfer) (reply : ImageReply)
  (after : List Running) (step : Step)

theorem waiting_settle (s : Slots) : (s.settle before j t reply after step).waiting
    = s.waiting ++ (ending j step.progress).flatMap (followers s.listener.isSome) := by
  unfold settle
  cases step.progress with
  | standing gate => exact (List.append_nil _).symm
  | ended o =>
    rw [ending, List.flatMap_singleton]
    exact waiting_finish _ j t.path o

theorem ended_settle (s : Slots) :
    (s.settle before j t reply after step).ended = s.ended ++ ending j step.progress := by
  unfold settle
  cases step.progress with
  | standing gate => exact (List.append_nil _).symm
  | ended o => exact ended_finish _ j t.path o

theorem begun_settle (s : Slots) : (s.settle before j t reply after step).begun.Perm
    (s.ended.map Prod.fst ++ j :: (before ++ after).map Running.job) := by
  unfold settle begun
  cases step.progress with
  | standing gate =>
    rw [List.map_append, List.map_append, List.map_cons]
    exact List.perm_middle.append_left _
  | ended o =>
    dsimp only
    rw [jobs_finish, ended_finish, List.map_append, List.append_assoc]
    rfl

theorem requests_settle {s : Slots} (hs : s.HearsSilently) :
    (s.settle before j t reply after step).log.requests
      = s.log.requests ++ step.log.requests := by
  rw [(says_settle s before j t reply after step).log, Log.requests_append, Log.requests_append,
    hs.requests_farewell, List.append_nil]

/-- A job has made a step, one of the first that waited or one in a slot. -/
theorem inTurn_settle (taken : List Job) {rest asking : List Job} (hw : s.waiting = taken ++ rest)
    (hj : (j :: (before ++ after).map Running.job).Perm (s.running.map Running.job ++ taken))
    (hasking : asking.Sublist taken)
    (hasks : step.log.requests = asking.map fun j => (s.transferOf j).request) :
    InTurn s (taken.map .started ++ s.brings j step.progress)
      (settle { s with waiting := rest } before j t reply after step) := by
  obtain ⟨hstarts, hleavings, hsubmissions, hbrought, _⟩ :=
    passages_of taken ((ending j step.progress).flatMap (followers s.listener.isSome))
  have hwaiting := waiting_settle before j t reply after step { s with waiting := rest }
  have hended := ended_settle before j t reply after step { s with waiting := rest }
  have hall : taken ++ (settle { s with waiting := rest } before j t reply after step).waiting
      = s.waiting ++ (ending j step.progress).flatMap (followers s.listener.isSome) := by
    rw [hwaiting, hw, List.append_assoc]
  have hbegun := begun_settle before j t reply after step { s with waiting := rest }
  refine ⟨?_, ?_, ?_, ?_, ?_, ?_, ?_, ?_⟩
  · rw [brings, hstarts, hsubmissions, hall]
  · rw [brings, hstarts, hsubmissions, hleavings, hall, List.append_nil]
  · have hpassed := hbegun.trans (hj.append_left _)
    rw [← List.append_assoc] at hpassed
    rw [brings, hstarts, hleavings, List.append_nil]
    exact hpassed
  · rw [brings, hleavings]
    exact List.forall_mem_nil _
  · rw [hended]
    exact List.prefix_append ..
  · rw [brings, hbrought, hended, List.flatMap_append]
  · intro hs
    refine ⟨asking, ?_, ?_⟩
    · rw [brings, hstarts]
      exact hasking
    · rw [requests_settle before j t reply after step (s := { s with waiting := rest }) hs, hasks]
  · refine Keeps.trans ?_ (keeps_settle { s with waiting := rest } before j t reply after step)
    exact ⟨rfl, rfl⟩

end Step

/-! ## Whatever happens -/

theorem inTurn_enqueue (s : Slots) (j : Job) : InTurn s [.handedIn j] (s.enqueue j) where
  order := List.Sublist.refl _
  places := by
    rw [show leavings [.handedIn j] = [] from rfl, List.append_nil]
    exact List.Perm.refl _
  passed := by
    rw [show starts [.handedIn j] = [] from rfl, show leavings [.handedIn j] = [] from rfl,
      List.append_nil, List.append_nil]
    exact List.Perm.refl _
  cancelled := List.forall_mem_nil _
  ended := List.prefix_rfl
  brought := (List.append_nil _).symm
  requests := fun _ => ⟨[], List.nil_sublist _, (List.append_nil _).symm⟩
  keeps := ⟨rfl, rfl⟩

theorem inTurn_leave {front back : List Job} (hw : s.waiting = front ++ j :: back) :
    InTurn s [.left j]
      { s with waiting := front ++ back, ended := s.ended ++ [(j, .cancelled)] } where
  order := by
    rw [hw, show submissions [.left j] = [] from rfl, List.append_nil]
    exact (List.sublist_cons_self j back).append_left front
  places := by
    rw [hw, show submissions [.left j] = [] from rfl, List.append_nil]
    exact (List.perm_append_singleton j (front ++ back)).trans List.perm_middle.symm
  passed := by
    rw [show starts [.left j] = [] from rfl, List.append_nil, begun, begun, List.map_append,
      List.append_assoc, List.append_assoc]
    exact List.perm_append_comm.append_left _
  cancelled := by
    intro k hk
    rw [List.mem_singleton.mp hk]
    exact List.mem_append_right _ (List.mem_singleton_self _)
  ended := List.prefix_append ..
  brought := by
    rw [List.flatMap_append]
    rfl
  requests := fun _ => ⟨[], List.nil_sublist _, (List.append_nil _).symm⟩
  keeps := ⟨rfl, rfl⟩

theorem jobs_of_place {before after : List Running} {r : Running}
    (hr : s.running = before ++ r :: after) :
    (r.job :: (before ++ after).map Running.job).Perm (s.running.map Running.job ++ []) := by
  rw [hr, List.append_nil]
  exact (List.perm_middle.map Running.job).symm

theorem Happens.inTurn (h : Happens s ps s') : InTurn s ps s' := by
  cases h with
  | handIn j => exact inTurn_enqueue s j
  | start gatesOpen j rest next free =>
    have hrequests := (s.transferOf j).requests_start s.disk gatesOpen s.server
    obtain ⟨asking, hasking, hasks⟩ : ∃ asking : List Job, asking.Sublist [j]
        ∧ ((s.transferOf j).start s.disk gatesOpen s.server).log.requests
          = asking.map fun j => (s.transferOf j).request := by
      split at hrequests
      · exact ⟨[], List.nil_sublist _, hrequests⟩
      · exact ⟨[j], List.Sublist.refl _, hrequests⟩
    refine inTurn_settle s.running j (s.transferOf j) _ [] _ [j] next ?_ hasking hasks
    rw [List.append_nil]
    exact (List.perm_append_singleton j _).symm
  | goOn gatesOpen before r after place =>
    exact inTurn_settle before r.job r.transfer r.reply after _ [] rfl
      (jobs_of_place place) (List.Sublist.refl []) (Transfer.requests_resume _ _ _ _ _)
  | cancelRunning before r after place =>
    exact inTurn_settle before r.job r.transfer r.reply after _ [] rfl
      (jobs_of_place place) (List.Sublist.refl []) (Transfer.requests_endWithout _ _ _)
  | leave front j back place => exact inTurn_leave place
  | anew =>
    have hsame := InTurn.refl s
    exact { hsame with keeps := ⟨rfl, rfl⟩ }

/-- By induction on what happens. -/
theorem History.inTurn (h : History s ps s') : InTurn s ps s' := by
  induction h with
  | start => exact .refl s
  | more _ next ih => exact ih.trans next.inTurn

/-- What is kept of a list in its order, and contains one of its elements as often, begins with
what comes before this element. -/
theorem sublist_front {α : Type} {front back kept rest gone : List α} {a : α}
    (horder : (kept ++ rest).Sublist (front ++ a :: back))
    (hplaces : (kept ++ rest ++ gone).Perm (front ++ a :: back)) (hkept : a ∉ kept)
    (hgone : a ∉ gone) : kept.Sublist front := by
  classical
  obtain ⟨l, m, hsplit, hl, hm⟩ := List.sublist_append_iff.mp horder
  rcases List.append_eq_append_iff.mp hsplit with ⟨c, rfl, -⟩ | ⟨c, rfl, rfl⟩
  · exact (List.sublist_append_left kept c).trans hl
  cases c with
  | nil =>
    rw [List.append_nil]
    exact hl
  | cons x c =>
    -- The next one kept is another, so `a` itself is missing behind it.
    have hback : (x :: c ++ rest).Sublist back := by
      cases hm with
      | cons _ hback => exact hback
      | cons_cons _ _ =>
        exact absurd (List.mem_append_right l (List.mem_cons_self ..)) hkept
    have hcount := hplaces.count_eq a
    have hfew := ((List.sublist_append_right (x :: c) rest).trans hback).count_le a
    rw [List.count_append, List.count_append, List.count_eq_zero.mpr hkept,
      List.count_eq_zero.mpr hgone, List.count_append, List.count_cons_self] at hcount
    omega

/-- A job that waits is not overtaken: until it has started or left, only jobs before it start. -/
theorem InTurn.not_overtaken (h : InTurn s ps s') {front back : List Job}
    (hw : s.waiting = front ++ j :: back) (hstill : j ∉ starts ps) (hstays : j ∉ leavings ps) :
    (starts ps).Sublist front := by
  have horder := h.order
  have hplaces := h.places
  rw [hw, List.append_assoc front, List.cons_append] at horder hplaces
  exact sublist_front horder hplaces hstill hstays

/-! ## What is done with slots is made of what can happen -/

/-- Things happen between the two states, and these jobs are handed in from outside. -/
def Reaches (s : Slots) (js : List Job) (s' : Slots) : Prop :=
  ∃ ps, History s ps s' ∧ handedInOf ps = js

variable {js : List Job}

theorem Reaches.more (h : Reaches s js s') (next : Happens s' qs s'') :
    Reaches s (js ++ handedInOf qs) s'' := by
  obtain ⟨ps, hps, rfl⟩ := h
  exact ⟨ps ++ qs, .more hps next, handedInOf_append ps qs⟩

/-- Nothing is handed in by what makes no job pass on but from slot to slot. -/
theorem Reaches.inside (h : Reaches s js s') (next : Happens s' qs s'') (hqs : handedInOf qs = []) :
    Reaches s js s'' := by
  have hmore := h.more next
  rwa [hqs, List.append_nil] at hmore

theorem handedInOf_brings (s : Slots) (j : Job) (p : Progress) : handedInOf (s.brings j p) = [] :=
  (passages_of [] _).2.2.2.2

theorem Reaches.work (h : Reaches s js s') (hwork : Work s' s'') : Reaches s js s'' := by
  cases hwork with
  | start gatesOpen j rest next free =>
    exact h.inside (.start s' gatesOpen j rest next free) (handedInOf_brings s' j _)
  | goOn gatesOpen before r after place =>
    exact h.inside (.goOn s' gatesOpen before r after place) (handedInOf_brings s' r.job _)

theorem Reaches.works (h : Reaches s js s') (hworks : Relation.ReflTransGen Work s' s'') :
    Reaches s js s'' := by
  induction hworks with
  | refl => exact h
  | tail _ hwork ih => exact ih.work hwork

theorem Reaches.enqueueAll {ks : List Job} (h : Reaches s js s') :
    Reaches s (js ++ ks) (s'.enqueueAll ks) := by
  induction ks generalizing js s' with
  | nil =>
    rw [List.append_nil]
    exact h
  | cons k ks ih =>
    rw [List.append_cons]
    exact ih (h.more (.handIn s' k))

theorem Reaches.release (h : Reaches s js s') (id : Json → Bool) :
    Reaches s js (s'.release id).1 := by
  unfold Slots.release
  split
  · exact h
  · rename_i before r after hfound
    have hwork := Work.goOn s' false before r after (findRunning_eq_some hfound)
    exact (h.work hwork).works (works_fill _ false)

theorem Reaches.cancel (h : Reaches s js s') (id : Json → Bool) :
    Reaches s js (s'.cancel id).1 := by
  unfold Slots.cancel
  split
  · rename_i before r after hfound
    have hcancel := Happens.cancelRunning s' before r after (findRunning_eq_some hfound)
    exact (h.inside hcancel (handedInOf_brings s' r.job _)).works (works_fill _ false)
  · split
    · rename_i j hfind
      obtain ⟨front, back, hwaiting, herase⟩ := eraseP_of_find? hfind
      rw [herase]
      exact h.inside (.leave s' front j back hwaiting) rfl
    · exact h

theorem Reaches.act (h : Reaches s js s') (a : Action) : Reaches s (js ++ a.jobs) (s'.act a) := by
  cases a with
  | submit ks => exact h.enqueueAll.works (works_fill _ false)
  | release id => exact (List.append_nil js).symm ▸ h.release id
  | cancel id => exact (List.append_nil js).symm ▸ h.cancel id
  | drain =>
    have hanew := h.inside (.anew s') rfl
    have hfinished := hanew.works (works_finishRunning s'.running.length _)
    have hdrained := hfinished.works (works_fill _ true)
    exact (List.append_nil js).symm ▸ hdrained

/-- By induction on the actions. -/
theorem Reaches.after (h : Reaches s js s') (actions : List Action) :
    Reaches s (js ++ actions.flatMap Action.jobs) (s'.after actions) := by
  induction actions generalizing js s' with
  | nil => exact (List.append_nil js).symm ▸ h
  | cons a actions ih =>
    rw [List.flatMap_cons, ← List.append_assoc]
    exact ih (h.act a)

/-! ## In the order of their submission -/

/-- What has become of the jobs that have passed on like this since the start. -/
structure Served (start : Slots) (ps : List Passage) (s : Slots) : Prop where
  /-- The jobs have started in the order in which they were submitted, those that wait come next in
  that order, and none is missing but those that have left. -/
  order : (starts ps ++ s.waiting).Sublist (submissions ps)
  places : (starts ps ++ s.waiting ++ leavings ps).Perm (submissions ps)
  /-- Who has started is in a slot or has ended; who has left was cancelled. -/
  passed : (s.ended.map Prod.fst ++ s.running.map Running.job).Perm (starts ps ++ leavings ps)
  cancelled : ∀ j ∈ leavings ps, (j, .cancelled) ∈ s.ended
  /-- The listener has submitted what comes after the jobs that have ended. -/
  brought : broughtOf ps = s.ended.flatMap (followers start.listener.isSome)
  /-- The images were asked for in that order too. -/
  requests : start.HearsSilently →
    s.log.requests.Sublist ((submissions ps).map fun j => (start.transferOf j).request)

theorem InTurn.served {start : Slots} (h : InTurn start ps s) (hwaiting : start.waiting = [])
    (hended : start.ended = []) (hrunning : start.running = []) (hlog : start.log = []) :
    Served start ps s := by
  have horder := h.order
  have hplaces := h.places
  have hpassed := h.passed
  have hbrought := h.brought
  rw [hwaiting, List.nil_append] at horder hplaces
  rw [begun, begun, hended, hrunning] at hpassed
  rw [hended, List.flatMap_nil, List.nil_append] at hbrought
  refine ⟨horder, hplaces, hpassed, h.cancelled, hbrought.symm, ?_⟩
  intro hs
  obtain ⟨asking, hasking, hasks⟩ := h.requests hs
  rw [hlog] at hasks
  rw [hasks]
  exact (hasking.trans ((List.sublist_append_left _ _).trans horder)).map _

/-- Whatever jobs are handed in, go on and are cancelled in any number of slots, they are served in
the order in which they were submitted; and as long as one of them waits, only jobs before it
start. -/
theorem served_in_order {folder quality : Text} {hasBars : Bool} {concurrency : Int}
    {listener : Option (Record → Option DownloadError → Log)} {server : ImageServer} {disk : Disk} :
    let start := empty folder quality hasBars concurrency listener server disk
    (∀ actions : List Action, ∃ ps, History start ps (start.after actions)
        ∧ handedInOf ps = actions.flatMap Action.jobs)
      ∧ ∀ ps s, History start ps s → Served start ps s
        ∧ ∀ qs s' front j back, History s qs s' → s.waiting = front ++ j :: back →
          j ∉ starts qs → j ∉ leavings qs → (starts qs).Sublist front := by
  intro start
  constructor
  · intro actions
    have hnothing : Reaches start [] start := ⟨[], .start, rfl⟩
    exact hnothing.after actions
  · intro ps s h
    refine ⟨h.inTurn.served rfl rfl rfl rfl, ?_⟩
    intro qs s' front j back h' hw hstill hstays
    exact h'.inTurn.not_overtaken hw hstill hstays

end Slots

/-! ## Four images and one slot -/

namespace FourImages

open Slots Passage

/-- The fourth image is given up while the second stands at its gate, so the third, which comes
after the second, is the last to be asked for. While the fourth waits, a fifth that is handed in
does not overtake it. -/
theorem served_in_order_four :
    let s := (start 1).after (lastGivenUp.take 1)
    let t := (start 1).after (lastGivenUp ++ [.drain])
    (∃ ps, handedInOf ps = lastGivenUp.flatMap Action.jobs ∧ Served (start 1) ps t
        ∧ t.log.requests.Sublist ((submissions ps).map fun j => ((start 1).transferOf j).request))
      ∧ t.log.requests.map (·.url) = ["b", "c"] ∧ t.waiting = []
      ∧ s.waiting.length = 1 ∧ (starts [.handedIn (job 5 "e" [])]).Sublist [] := by
  intro s t
  obtain ⟨hactions, hserved⟩ := @served_in_order "p" "SD" false 1 (some fun _ _ => []) server disk
  obtain ⟨ps, hps, hjobs⟩ := hactions (lastGivenUp ++ [.drain])
  obtain ⟨qs, hqs, _⟩ := hactions (lastGivenUp.take 1)
  have hsilent : (start 1).HearsSilently := by
    intro hear hl r e
    cases hl
    rfl
  have ht := (hserved ps t hps).1
  have hfifth : History s [.handedIn (job 5 "e" [])] (s.enqueue (job 5 "e" [])) :=
    .more .start (.handIn s (job 5 "e" []))
  have hone : s.waiting.length = 1 := by decide +kernel
  obtain ⟨fourth, hwaits⟩ := List.length_eq_one_iff.mp hone
  refine ⟨⟨ps, hjobs, ht, ht.requests hsilent⟩, by decide +kernel, by decide +kernel, hone, ?_⟩
  exact (hserved qs s hqs).2 _ _ [] fourth [] hfifth hwaits List.not_mem_nil List.not_mem_nil

end FourImages

end GalleryScan
