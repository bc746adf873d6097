import GalleryScan.Download.Transfer

/-!
# Download slots

Jobs are submitted in any number and run in a fixed number of slots, first come, first served. A
job runs until it ends or stands at a closed gate. When it ends, its slot is free for the job that
has waited longest, and whoever listens is told, who may have further jobs to submit. A failed job
is counted and reported; nothing it does reaches the other jobs.
-/

set_option autoImplicit false

namespace GalleryScan

/-- An image to download, with what the server is to do with the request where that is known, and
the jobs to submit when this one has ended. -/
structure Job where
  record : Record
  reply? : Option (Text × ImageReply)
  next : List Job

mutual

/-- The number of jobs in a job, itself and those after it. -/
def Job.size : Job → Nat
  | ⟨_, _, next⟩ => Job.sizes next + 1

def Job.sizes : List Job → Nat
  | [] => 0
  | j :: js => j.size + Job.sizes js

end

/-- A job in a slot, standing at a gate. -/
structure Running where
  job : Job
  transfer : Transfer
  reply : ImageReply
  gate : Gate

/-- The jobs of a run and where they stand. -/
structure Slots where
  folder : Text
  quality : Text
  /-- Does a bar show how far each download is? -/
  hasBars : Bool
  capacity : Nat
  /-- What happens when a job has ended; without a listener nobody is told. -/
  listener : Option (Record → Option DownloadError → Log)
  server : ImageServer
  disk : Disk
  /-- The jobs without a slot, longest waiting first. -/
  waiting : List Job
  /-- The jobs in slots, in the order in which they started. -/
  running : List Running
  submitted : Nat
  completed : Nat
  failed : Nat
  /-- The ends that the listener was told of. -/
  told : List (Json × Option DownloadError)
  ended : List (Job × Outcome)
  /-- What ends the program. -/
  stop : Option Stop
  log : Log

namespace Slots

/-- The number of slots for a number asked for: at least one. -/
def capacityFor (concurrency : Int) : Nat := max 1 concurrency.toNat

/-- The number of slots where none is asked for. -/
def usualConcurrency : Int := 5

def empty (folder quality : Text) (hasBars : Bool) (concurrency : Int)
    (listener : Option (Record → Option DownloadError → Log)) (server : ImageServer) (disk : Disk) :
    Slots :=
  { folder, quality, hasBars, listener, server, disk
    capacity := capacityFor concurrency
    waiting := []
    running := []
    submitted := 0
    completed := 0
    failed := 0
    told := []
    ended := []
    stop := none
    log := [] }

def inFlight (s : Slots) : Nat := s.running.length

/-- A job joins those that wait. -/
def enqueue (s : Slots) (j : Job) : Slots :=
  { s with
    submitted := s.submitted + 1
    server := s.server ++ j.reply?.toList
    waiting := s.waiting ++ [j] }

def enqueueAll (s : Slots) (js : List Job) : Slots := js.foldl enqueue s

/-! ## The end of a job -/

/-- The gate of a download whose file no longer goes by its name. -/
def Gate.unnamed : Gate → Gate
  | .answer => .answer
  | .body rest break? file => .body rest break? file.unnamed

/-- A file's name is taken away from every download that writes to it. -/
def takeName (s : Slots) (path : Text) : Slots :=
  { s with running := s.running.map fun r =>
      if Path.onDisk r.transfer.path = Path.onDisk path then { r with gate := Gate.unnamed r.gate }
      else r }

/-- The listener is told of an end and submits what comes next. -/
def tell (s : Slots) (j : Job) (e : Option DownloadError) : Slots :=
  match s.listener with
  | none => s
  | some f =>
    enqueueAll { s with told := s.told ++ [(j.record.id, e)], log := s.log ++ f j.record e } j.next

/-- A job that has left its slot has ended. -/
def finish (s : Slots) (j : Job) (path : Text) (outcome : Outcome) : Slots :=
  let s := { s with ended := s.ended ++ [(j, outcome)] }
  match outcome with
  | .saved => tell { s with completed := s.completed + 1 } j none
  | .failed e =>
    let s := s.takeName path
    tell { s with
      completed := s.completed + 1
      failed := s.failed + 1
      log := s.log ++ [.line ("[!] " ++ e.message)] } j (some e)
  | .cancelled => s.takeName path
  | .stopped stop => { s with stop := s.stop.or (some stop) }

/-- A job between others in slots has made a step: it keeps its slot or leaves it. -/
def settle (s : Slots) (before : List Running) (j : Job) (t : Transfer) (reply : ImageReply)
    (after : List Running) (step : Step) : Slots :=
  let s := { s with log := s.log ++ step.log, disk := step.disk, running := before ++ after }
  match step.progress with
  | .standing gate => { s with running := before ++ ⟨j, t, reply, gate⟩ :: after }
  | .ended outcome => s.finish j t.path outcome

theorem sizes_append (js ks : List Job) : Job.sizes (js ++ ks) = Job.sizes js + Job.sizes ks := by
  induction js with
  | nil => simp [Job.sizes]
  | cons j js ih => simp [Job.sizes, ih, Nat.add_assoc]

theorem waiting_enqueueAll (s : Slots) (js : List Job) :
    (s.enqueueAll js).waiting = s.waiting ++ js := by
  induction js generalizing s with
  | nil => simp [enqueueAll]
  | cons j js ih =>
    have := ih (s.enqueue j)
    simp_all [enqueueAll, enqueue]

theorem sizes_waiting_tell (s : Slots) (j : Job) (e : Option DownloadError) :
    Job.sizes (s.tell j e).waiting ≤ Job.sizes s.waiting + Job.sizes j.next := by
  unfold tell
  split
  · omega
  · simp [waiting_enqueueAll, sizes_append]

theorem sizes_waiting_finish (s : Slots) (j : Job) (path : Text) (o : Outcome) :
    Job.sizes (s.finish j path o).waiting ≤ Job.sizes s.waiting + Job.sizes j.next := by
  cases o with
  | saved => exact sizes_waiting_tell _ j none
  | failed e => exact sizes_waiting_tell _ j (some e)
  | cancelled => simp [finish, takeName]
  | stopped b => simp [finish]

theorem sizes_waiting_settle (s : Slots) (before : List Running) (j : Job) (t : Transfer)
    (reply : ImageReply) (after : List Running) (step : Step) :
    Job.sizes (s.settle before j t reply after step).waiting
      ≤ Job.sizes s.waiting + Job.sizes j.next := by
  unfold settle
  split
  · simp
  · exact sizes_waiting_finish _ j _ _

/-! ## Starting -/

def transferOf (s : Slots) (j : Job) : Transfer := j.record.transfer s.quality s.folder s.hasBars

/-- A job takes a slot and runs. -/
def begin (s : Slots) (gatesOpen : Bool) (j : Job) : Slots :=
  let t := s.transferOf j
  s.settle s.running j t (s.server.replyTo t.url) [] (t.start s.disk gatesOpen s.server)

theorem sizes_waiting_begin (s : Slots) (gatesOpen : Bool) (j : Job) :
    Job.sizes (s.begin gatesOpen j).waiting < Job.sizes s.waiting + j.size := by
  have := sizes_waiting_settle s s.running j (s.transferOf j)
    (s.server.replyTo (s.transferOf j).url) []
    ((s.transferOf j).start s.disk gatesOpen s.server)
  obtain ⟨r, reply, next⟩ := j
  simp only [begin, Job.size] at this ⊢
  omega

def isInterrupted (s : Slots) : Bool := s.stop.any Stop.isInterrupt

/-- Starts waiting jobs as long as a slot is free. Each start leaves fewer jobs to start, those
that come after others included. -/
def fill (s : Slots) (gatesOpen : Bool) : Slots :=
  match h : s.waiting with
  | [] => s
  | j :: rest =>
    if s.running.length < s.capacity && !s.isInterrupted then
      have : Job.sizes (begin { s with waiting := rest } gatesOpen j).waiting
          < Job.sizes s.waiting := by
        have := sizes_waiting_begin { s with waiting := rest } gatesOpen j
        simp only [h, Job.sizes] at this ⊢
        omega
      fill (begin { s with waiting := rest } gatesOpen j) gatesOpen
    else s
termination_by Job.sizes s.waiting

/-! ## What can be asked of the slots -/

/-- Submits jobs, and lets everything run that can. -/
def submit (s : Slots) (js : List Job) : Slots := (s.enqueueAll js).fill false

/-- The jobs before the first one in a slot with an id, that one, and the jobs after it. -/
def findRunning (id : Json → Bool) : List Running → Option (List Running × Running × List Running)
  | [] => none
  | r :: rs =>
    if id r.job.record.id then some ([], r, rs)
    else (findRunning id rs).map fun (before, found, after) => (r :: before, found, after)

/-- A job between others in slots goes on from its gate. -/
def advance (s : Slots) (gatesOpen : Bool) (before : List Running) (r : Running)
    (after : List Running) : Slots :=
  s.settle before r.job r.transfer r.reply after (r.transfer.resume s.disk gatesOpen r.reply r.gate)

/-- Opens the gate at which a job stands. Does one stand at a gate? -/
def release (s : Slots) (id : Json → Bool) : Slots × Bool :=
  match findRunning id s.running with
  | none => (s, false)
  | some (before, r, after) => ((s.advance false before r after).fill false, true)

def cancelRunning (s : Slots) (before : List Running) (r : Running) (after : List Running) :
    Slots :=
  s.settle before r.job r.transfer r.reply after (r.transfer.cancel s.disk)

/-- Cancels a job. Was there one that had not ended? -/
def cancel (s : Slots) (id : Json → Bool) : Slots × Bool :=
  match findRunning id s.running with
  | some (before, r, after) => ((s.cancelRunning before r after).fill false, true)
  | none =>
    match s.waiting.find? (id ·.record.id) with
    | some j =>
      ({ s with
          waiting := s.waiting.eraseP (id ·.record.id)
          ended := s.ended ++ [(j, .cancelled)] }, true)
    | none => (s, false)

/-- Lets jobs in slots, as many as said, go on with all gates open. -/
def finishRunning : Nat → Slots → Slots
  | n + 1, s =>
    match s.running with
    | r :: rest => if s.isInterrupted then s else finishRunning n (s.advance true [] r rest)
    | [] => s
  | 0, s => s

/-- Waits with all gates open until no job is left, those submitted meanwhile included. -/
def drain (s : Slots) : Slots :=
  let s := { s with stop := none }
  (finishRunning s.running.length s).fill true

def cancelAllRunning : Nat → Slots → Slots
  | n + 1, s =>
    match s.running with
    | r :: rest => cancelAllRunning n (s.cancelRunning [] r rest)
    | [] => s
  | 0, s => s

def cancelAll (s : Slots) : Slots :=
  cancelAllRunning s.running.length
    { s with waiting := [], ended := s.ended ++ s.waiting.map (·, .cancelled) }

end Slots

end GalleryScan
