import GalleryScan.Download.Slots

/-!
# Downloads ask for no page

A request for a page carries parameters, a request for an image carries none. So the requests for
pages can be read off any log, and what the slots do, whichever jobs they run and however these
end, adds none to them:

> `(s.drain).log.pageRequests = s.log.pageRequests`

as long as the listener, who may log what he likes, adds none either.
-/

set_option autoImplicit false

namespace GalleryScan

namespace Log

/-- The requests for pages. -/
def pageRequests (log : Log) : List Request := log.requests.filter (·.parameters.isSome)

@[simp]
theorem pageRequests_nil : pageRequests [] = [] := rfl

@[simp]
theorem requests_append (l m : Log) : requests (l ++ m) = l.requests ++ m.requests :=
  List.filterMap_append ..

@[simp]
theorem pageRequests_append (l m : Log) :
    pageRequests (l ++ m) = pageRequests l ++ pageRequests m := by
  simp [pageRequests]

@[simp]
theorem pageRequests_line (t : Text) (l : Log) : pageRequests (.line t :: l) = pageRequests l := rfl

theorem requests_detail (t : Text) (l : Log) : requests (.detail t :: l) = requests l := rfl

theorem requests_request (r : Request) (l : Log) : requests (.request r :: l) = r :: requests l :=
  rfl

end Log

namespace Transfer

variable (t : Transfer)

theorem requests_clear (d : Disk) : (t.clear d).1.requests = [] := by
  unfold clear
  split
  · rfl
  · rfl
  · split <;> rfl

theorem requests_endWithout (d : Disk) (o : Outcome) : (t.endWithout d o).log.requests = [] := by
  have h := t.requests_clear d
  unfold endWithout
  split <;> simp_all

theorem requests_receive (gatesOpen : Bool) (break? : Option Text) (d : Disk) (file : Stream)
    (chunks : List Chunk) : (t.receive gatesOpen break? d file chunks).log.requests = [] := by
  fun_induction t.receive gatesOpen break? d file chunks with
  | case1 => rfl
  | case2 => exact t.requests_endWithout _ _
  | case3 => rfl
  | case4 _ _ _ _ _ _ _ _ ih => exact ih
  | case5 _ _ _ _ ih => exact ih
  | case6 => rfl

theorem requests_respond (d : Disk) (gatesOpen : Bool) (reply : ImageReply) :
    (t.respond d gatesOpen reply).log.requests = [] := by
  unfold respond
  split
  · split
    · rfl
    · exact t.requests_endWithout _ _
  · split
    · exact t.requests_endWithout _ _
    · split
      · exact t.requests_endWithout _ _
      · rw [opening, Log.requests_detail]
        split
        · exact t.requests_endWithout _ _
        · split
          · exact t.requests_endWithout _ _
          · exact t.requests_receive _ _ _ _ _

/-- The image is asked for once, unless its file is there. -/
theorem requests_start (d : Disk) (gatesOpen : Bool) (server : ImageServer) :
    (t.start d gatesOpen server).log.requests
      = if d.hasEntry t.path then [] else [t.request] := by
  unfold start
  split
  · rfl
  · rw [Log.requests_detail, Log.requests_request]
    split
    · rfl
    · rw [t.requests_respond]

theorem requests_resume (d : Disk) (gatesOpen : Bool) (reply : ImageReply) (g : Gate) :
    (t.resume d gatesOpen reply g).log.requests = [] := by
  cases g with
  | answer => exact t.requests_respond _ _ _
  | body rest break? file => exact t.requests_receive _ _ _ _ _

theorem pageRequests_start (d : Disk) (gatesOpen : Bool) (server : ImageServer) :
    (t.start d gatesOpen server).log.pageRequests = [] := by
  rw [Log.pageRequests, t.requests_start]
  split <;> rfl

theorem pageRequests_resume (d : Disk) (gatesOpen : Bool) (reply : ImageReply) (g : Gate) :
    (t.resume d gatesOpen reply g).log.pageRequests = [] := by
  rw [Log.pageRequests, t.requests_resume, List.filter_nil]

end Transfer

namespace Slots

/-- The listener logs no request for a page. -/
def HearsQuietly (s : Slots) : Prop :=
  ∀ f, s.listener = some f → ∀ r e, (f r e).pageRequests = []

/-- The second state has the first one's listener and its requests for pages. -/
def Quiet (s s' : Slots) : Prop :=
  s'.listener = s.listener ∧ s'.log.pageRequests = s.log.pageRequests

theorem Quiet.refl (s : Slots) : Quiet s s := ⟨rfl, rfl⟩

theorem Quiet.trans {s s' s'' : Slots} (h : Quiet s s') (h' : Quiet s' s'') : Quiet s s'' :=
  ⟨h'.1.trans h.1, h'.2.trans h.2⟩

theorem Quiet.hears {s s' : Slots} (h : Quiet s s') (hs : s.HearsQuietly) : s'.HearsQuietly :=
  fun f hf => hs f (h.1 ▸ hf)

theorem quiet_enqueueAll (s : Slots) (js : List Job) : Quiet s (s.enqueueAll js) := by
  induction js generalizing s with
  | nil => exact .refl s
  | cons j js ih => exact (show Quiet s (s.enqueue j) from ⟨rfl, rfl⟩).trans (ih _)

theorem quiet_tell {s : Slots} (hs : s.HearsQuietly) (j : Job) (e : Option DownloadError) :
    Quiet s (s.tell j e) := by
  unfold tell
  split
  · exact .refl s
  · rename_i f hf
    apply Quiet.trans _ (quiet_enqueueAll _ _)
    refine ⟨rfl, ?_⟩
    rw [Log.pageRequests_append, hs f hf, List.append_nil]

theorem quiet_finish {s : Slots} (hs : s.HearsQuietly) (j : Job) (path : Text) (o : Outcome) :
    Quiet s (s.finish j path o) := by
  cases o with
  | saved =>
    refine Quiet.trans ?_ (quiet_tell ?_ j none)
    · exact ⟨rfl, rfl⟩
    · exact hs
  | failed e =>
    refine Quiet.trans ?_ (quiet_tell ?_ j (some e))
    · exact ⟨rfl, by simp [takeName]⟩
    · exact hs
  | cancelled => exact ⟨rfl, rfl⟩
  | stopped b => exact ⟨rfl, rfl⟩

theorem quiet_settle {s : Slots} (hs : s.HearsQuietly) (before : List Running) (j : Job)
    (t : Transfer) (reply : ImageReply) (after : List Running) {step : Step}
    (hstep : step.log.pageRequests = []) : Quiet s (s.settle before j t reply after step) := by
  have hlog : Log.pageRequests (s.log ++ step.log) = s.log.pageRequests := by simp [hstep]
  unfold settle
  split
  · exact ⟨rfl, hlog⟩
  · refine Quiet.trans ?_ (quiet_finish ?_ j _ _)
    · exact ⟨rfl, hlog⟩
    · exact hs

theorem quiet_begin {s : Slots} (hs : s.HearsQuietly) (gatesOpen : Bool) (j : Job) :
    Quiet s (s.begin gatesOpen j) :=
  quiet_settle hs _ _ _ _ _ (Transfer.pageRequests_start _ _ _ _)

theorem quiet_fill {s : Slots} (hs : s.HearsQuietly) (gatesOpen : Bool) :
    Quiet s (s.fill gatesOpen) := by
  fun_induction s.fill gatesOpen with
  | case1 s => exact .refl s
  | case2 s j rest h hfree _ ih =>
    have hstart : Quiet s (begin { s with waiting := rest } gatesOpen j) :=
      quiet_begin (s := { s with waiting := rest }) hs gatesOpen j
    exact hstart.trans (ih (hstart.hears hs))
  | case3 s => exact .refl s

theorem quiet_finishRunning (n : Nat) {s : Slots} (hs : s.HearsQuietly) :
    Quiet s (finishRunning n s) := by
  induction n generalizing s with
  | zero => exact .refl s
  | succ n ih =>
    unfold finishRunning
    split
    · split
      · exact .refl s
      · rename_i r rest _ _
        have hgo : Quiet s (s.advance true [] r rest) :=
          quiet_settle hs _ _ _ _ _ (Transfer.pageRequests_resume _ _ _ _ _)
        exact hgo.trans (ih (hgo.hears hs))
    · exact .refl s

theorem quiet_drain {s : Slots} (hs : s.HearsQuietly) : Quiet s s.drain := by
  have hrun : Quiet s (finishRunning s.running.length { s with stop := none }) :=
    quiet_finishRunning _ (s := { s with stop := none }) hs
  exact hrun.trans (quiet_fill (hrun.hears hs) true)

end Slots

end GalleryScan
