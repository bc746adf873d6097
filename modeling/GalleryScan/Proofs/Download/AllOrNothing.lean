import GalleryScan.Proofs.Download.Filling
import GalleryScan.Proofs.Download.Quiet
import GalleryScan.Proofs.Gallery.FileName

/-!
# A download is all or nothing

A download into a folder that is there, with nobody else at work, leaves the folder as it was, or
with one file more that holds the whole body. It asks for the image once, unless there is something
under the name of its file, and it fails for one of a few reasons, each of which is told by the
reply to its request or by the name of the file:

> `(∃ e, step.progress = .ended (.failed e)) ↔`
> `  (reply.Fails ∨ ∃ fault, d.openFile t.path = .error fault) ∨ hasBar = true ∧ reply.OutgrowsBar`

The last of them is that the announced length, which may be any whole number, is too large for the
bar that shows how far the download is. Without a bar such a length does no harm.
-/

set_option autoImplicit false

namespace GalleryScan

/-! ## Numbers in digits -/

namespace Whole

variable {t : Text} {ds : List Nat}

theorem digitRun_of_digits (h : t.mapM CodePoint.decimal? = some ds) :
    digitRun t = some (ds, []) := by
  induction t generalizing ds with
  | nil =>
    cases h
    rw [digitRun]
    rfl
  | cons c t ih =>
    rw [List.mapM_cons] at h
    obtain ⟨d, hd, hrest⟩ := Option.bind_eq_some_iff.mp h
    obtain ⟨ds, hds, hall⟩ := Option.bind_eq_some_iff.mp hrest
    cases hall
    rw [digitRun.eq_def]
    dsimp only
    rw [hd, ih hds]
    rfl

theorem magnitude_of_digits (h : t.mapM CodePoint.decimal? = some ds)
    (hsome : t.head?.any CodePoint.isDecimal = true) (hfew : ds.length ≤ maxDigits) :
    magnitude t = .ok (ofDigits ds) := by
  rw [magnitude, if_pos hsome, digitRun_of_digits h]
  dsimp only
  rw [if_neg (by omega), if_pos rfl]

end Whole

/-! ## Replies that lead to no file -/

/-- The reply leads to no file, with a bar or without one. -/
inductive ImageReply.Fails (reply : ImageReply) : Prop where
  | request (fault : TransportFault) (failed : reply.answer = .error fault)
  | status (a : ImageAnswer) (answer : reply.answer = .ok a) (refused : 400 ≤ a.status)
  | length (a : ImageAnswer) (answer : reply.answer = .ok a) (announced : Text)
      (header : header? "content-length" a.headers = some announced) (nonempty : announced ≠ [])
      (fault : WholeFault) (unread : Whole.read announced = .error fault)
  | body (a : ImageAnswer) (answer : reply.answer = .ok a) (message : Text)
      (broken : a.break? = some message) (whole : Chunk.data [] ∉ a.chunks)

/-- The reply announces a length that is too large for a bar. -/
def ImageReply.OutgrowsBar (reply : ImageReply) : Prop :=
  ∃ a length, reply.answer = .ok a ∧ Transfer.announced a.headers = .ok length
    ∧ Double.isTooLarge length = true

theorem Body.endsEarly_eq_false_iff {chunks : List Chunk} :
    Body.endsEarly chunks = false ↔ Chunk.data [] ∉ chunks := by
  rw [Body.endsEarly, ← Bool.not_eq_true, List.contains_iff_mem, List.mem_filterMap]
  refine not_congr ⟨?_, fun h => ⟨_, h, rfl⟩⟩
  rintro ⟨c, hc, hdata⟩
  cases c with
  | data content =>
    cases hdata
    exact hc
  | gate => cases hdata

theorem Body.fileOf?_eq_none_iff {got : Bytes} {rest : List Chunk} {break? : Option Text} :
    Body.fileOf? got rest break? = none
      ↔ ∃ message, break? = some message ∧ Chunk.data [] ∉ rest := by
  rw [Body.fileOf?, ← Body.endsEarly_eq_false_iff]
  cases break? <;> cases Body.endsEarly rest <;> simp

theorem Transfer.announced_eq_error_iff {headers : List (Text × Text)} :
    (∃ cause, Transfer.announced headers = .error cause) ↔ ∃ t fault,
      header? "content-length" headers = some t ∧ t ≠ [] ∧ Whole.read t = .error fault := by
  unfold Transfer.announced
  cases header? "content-length" headers with
  | none => simp
  | some t =>
    cases t with
    | nil => simp
    | cons c cs => cases hread : Whole.read (c :: cs) <;> simp [hread]

theorem Transfer.announced_of_read {headers : List (Text × Text)} {t : Text} {n : Int}
    (hheader : header? "content-length" headers = some t) (hsome : t ≠ [])
    (hread : Whole.read t = .ok n) : Transfer.announced headers = .ok n := by
  unfold Transfer.announced
  rw [hheader]
  cases t with
  | nil => exact absurd rfl hsome
  | cons c cs =>
    dsimp only
    rw [hread]

/-- What the reply to a request leads to is a file, but for these reasons. -/
theorem ImageReply.file?_eq_none_iff {hasBar : Bool} {reply : ImageReply} :
    reply.file? hasBar = none ↔ reply.Fails ∨ hasBar = true ∧ reply.OutgrowsBar := by
  unfold ImageReply.file?
  cases hanswer : reply.answer with
  | error fault => exact ⟨fun _ => .inl (.request fault hanswer), fun _ => rfl⟩
  | ok a =>
    dsimp only
    by_cases hstatus : 400 ≤ a.status
    · rw [if_pos hstatus]
      exact ⟨fun _ => .inl (.status a hanswer hstatus), fun _ => rfl⟩
    rw [if_neg hstatus]
    cases hlength : Transfer.announced a.headers with
    | error cause =>
      obtain ⟨t, fault, hheader, hsome, hread⟩ :=
        Transfer.announced_eq_error_iff.mp ⟨cause, hlength⟩
      exact ⟨fun _ => .inl (.length a hanswer t hheader hsome fault hread), fun _ => rfl⟩
    | ok n =>
      dsimp only
      cases hbar : hasBar && Double.isTooLarge n with
      | true =>
        rw [Bool.and_eq_true] at hbar
        exact ⟨fun _ => .inr ⟨hbar.1, a, n, hanswer, hlength, hbar.2⟩, fun _ => rfl⟩
      | false =>
        rw [if_neg Bool.false_ne_true, Body.fileOf?_eq_none_iff]
        constructor
        · rintro ⟨message, hbreak, hwhole⟩
          exact .inl (.body a hanswer message hbreak hwhole)
        · -- Of the reasons only a body that breaks off is left.
          rintro (hfails | ⟨hhas, b, m, hb, hm, hlarge⟩)
          · cases hfails with
            | request fault failed => cases failed.symm.trans hanswer
            | status b answer refused =>
              cases answer.symm.trans hanswer
              exact absurd refused hstatus
            | length b answer t header nonempty fault unread =>
              cases answer.symm.trans hanswer
              obtain ⟨cause, hcause⟩ :=
                Transfer.announced_eq_error_iff.mpr ⟨t, fault, header, nonempty, unread⟩
              cases hcause.symm.trans hlength
            | body b answer message broken whole =>
              cases answer.symm.trans hanswer
              exact ⟨message, broken, whole⟩
          · cases hb.symm.trans hanswer
            cases hm.symm.trans hlength
            rw [hhas, hlarge] at hbar
            cases hbar

theorem ImageReply.exists_arrived {hasBar : Bool} {reply : ImageReply} {content : Bytes}
    (h : reply.file? hasBar = some content) :
    ∃ a, reply.answer = .ok a ∧ content = Body.arrived a.chunks := by
  unfold ImageReply.file? at h
  split at h
  · cases h
  rename_i a hanswer
  split at h
  · cases h
  split at h
  · cases h
  split at h
  · cases h
  rw [Body.fileOf?] at h
  split at h
  · cases h
  · cases h
    exact ⟨a, hanswer, rfl⟩

/-! ## What a download leaves -/

/-- The second disk is the first one with a file more. -/
structure Disk.Gains (S : Route) (content : Bytes) (d d' : Disk) : Prop extends
    Disk.SameBut S d d' where
  free : d.entry? S = none
  there : d'.entry? S = some (.file content)

namespace Transfer

variable {t : Transfer} {d : Disk} {p n : Text} {R : Route} {server : ImageServer}
  {step : Step}

/-- In a folder that is there just a name that is too long keeps a new file from being opened. -/
theorem GoesTo.openFile_eq_error_iff (h : t.GoesTo d p n R) (hfree : d.at? (Path.join p n) = none) :
    (∃ fault, d.openFile t.path = .error fault) ↔ ¬ Path.Fits p n := by
  constructor
  · rintro ⟨fault, hfault⟩ hfits
    have hleads := h.leads hfits
    rw [hleads.at? h.check] at hfree
    rw [h.path, hleads.openFile h.check (by rw [hfree]; simp)] at hfault
    cases hfault
  · intro hfits
    rw [h.path]
    exact ⟨_, Disk.openFile_of_locate h.check (h.folder.locate_unfit h.name hfits)⟩

/-- How the only download to a name in a folder ends that does not find a file there and is not
broken off. -/
theorem GoesTo.settles_start (h : t.GoesTo d p n R) (hfree : d.at? t.path = none)
    (hreply : (server.replyTo t.url).IsOrdinary) :
    (∃ content, (t.start d true server).progress = .ended .saved
        ∧ (server.replyTo t.url).file? t.hasBar = some content ∧ Path.Fits p n
        ∧ Disk.Gains (R ++ [Path.onDisk n]) content d (t.start d true server).disk)
      ∨ ∃ cause, (t.start d true server).progress = .ended (.failed ⟨t.id, cause⟩)
        ∧ ((server.replyTo t.url).file? t.hasBar = none ∨ ¬ Path.Fits p n)
        ∧ Disk.Same d (t.start d true server).disk := by
  have hcheck : Disk.checkPath t.path = .ok () := by
    rw [h.path]
    exact h.check
  cases Transfer.settles_start h.path h.folder h.name with
  | present progress same check fits there =>
    rw [h.path, h.at?, if_pos fits] at hfree
    rw [hfree] at there
    cases there
  | saved content progress whole check fits free same there =>
    exact .inl ⟨content, progress, whole, fits, same, free, there⟩
  | failed e progress lost same =>
    rcases t.start_concludes d true server _ progress with hsaved | ⟨cause, hfailed⟩ | ⟨stop, hstop⟩
    · cases hsaved
    · cases hfailed
      exact .inr ⟨cause, progress, lost, same⟩
    · cases hstop
  | stopped stop progress => exact absurd progress (start_stays hcheck true hreply stop)

theorem GoesTo.start_fails_iff (h : t.GoesTo d p n R) (hfree : d.at? t.path = none)
    (hreply : (server.replyTo t.url).IsOrdinary) :
    (∃ e, (t.start d true server).progress = .ended (.failed e)) ↔
      ((server.replyTo t.url).Fails ∨ ∃ fault, d.openFile t.path = .error fault)
        ∨ t.hasBar = true ∧ (server.replyTo t.url).OutgrowsBar := by
  have hopen := h.openFile_eq_error_iff (h.path ▸ hfree)
  rw [hopen, or_right_comm, ← ImageReply.file?_eq_none_iff]
  rcases h.settles_start hfree hreply with
    ⟨content, hsaved, hfile, hfits, _⟩ | ⟨cause, hfailed, hlost, _⟩
  · rw [hsaved, hfile]
    simp [hfits]
  · exact ⟨fun _ => hlost, fun _ => ⟨_, hfailed⟩⟩

end Transfer

section Record

variable {r : Record} {quality folder : Text} {d : Disk} {server : ImageServer} {R : Route}

/-- A record's image goes to a name in the folder. -/
theorem Record.goesTo (hfolder : d.IsFolder folder R)
    (hname : (r.target quality).fileName.isEncodable = true) (hasBar : Bool) :
    (r.transfer quality folder hasBar).GoesTo d folder (r.target quality).fileName R :=
  ⟨rfl, hfolder, r.isName_fileName quality,
    Disk.checkPath_join hfolder.check hname (null_notMem_fileName quality r)⟩

/-- A download of a record's image, with no other beside it, finds what is under the name of its
file and leaves everything as it is; or it sends one request, and then there is the file with the
whole body, or nothing has changed and the record's id is told, for one of the reasons. -/
theorem Transfer.start_all_or_nothing (r : Record) (quality folder : Text) (hasBar : Bool)
    (d : Disk) (server : ImageServer) (hfolder : d.hasFolder folder = true)
    (hname : (r.target quality).fileName.isEncodable = true)
    (hreply : (server.replyTo (r.target quality).url).IsOrdinary) :
    let t := r.transfer quality folder hasBar
    let reply := server.replyTo t.url
    let step := t.start d true server
    (d.hasEntry t.path = true →
      step.progress = .ended .saved ∧ step.log.requests = [] ∧ step.disk = d)
    ∧ (d.hasEntry t.path = false → step.log.requests = [t.request]
      ∧ ((step.progress = .ended .saved ∧ ∃ R a, d.IsFolder folder R ∧ reply.answer = .ok a
          ∧ Disk.Gains (R ++ [(r.target quality).fileName]) (Body.arrived a.chunks) d step.disk)
        ∨ ∃ cause, step.progress = .ended (.failed ⟨r.id, cause⟩) ∧ Disk.Same d step.disk)
      ∧ ((∃ e, step.progress = .ended (.failed e)) ↔
        (reply.Fails ∨ ∃ fault, d.openFile t.path = .error fault)
          ∨ hasBar = true ∧ reply.OutgrowsBar)) := by
  intro t reply step
  have hrequests : step.log.requests = _ := t.requests_start d true server
  obtain ⟨R, hR⟩ := Disk.exists_isFolder hfolder
  have hgoes : t.GoesTo d folder (r.target quality).fileName R := r.goesTo hR hname hasBar
  constructor
  · intro hentry
    obtain ⟨log, hstep⟩ : ∃ log, step = ⟨log, d, .ended .saved⟩ :=
      Transfer.start_of_entry (Option.isSome_iff_ne_none.mp hentry) true server
    rw [if_pos hentry] at hrequests
    exact ⟨by rw [hstep], hrequests, by rw [hstep]⟩
  · intro hentry
    have hfree : d.at? t.path = none := by
      rwa [Disk.hasEntry, Option.isSome_eq_false_iff, Option.isNone_iff_eq_none] at hentry
    rw [hentry, if_neg Bool.false_ne_true] at hrequests
    refine ⟨hrequests, ?_, hgoes.start_fails_iff hfree hreply⟩
    rcases hgoes.settles_start hfree hreply with
      ⟨content, hsaved, hfile, _, hgains⟩ | ⟨cause, hfailed, _, hsame⟩
    · obtain ⟨a, hanswer, rfl⟩ := ImageReply.exists_arrived hfile
      rw [Path.onDisk_of_isEncodable hname] at hgains
      exact .inl ⟨hsaved, R, a, hR, hanswer, hgains⟩
    · exact .inr ⟨cause, hfailed, hsame⟩

end Record

/-! ## A length that no bar can show -/

namespace LongLength

/-- A whole number of 400 digits. -/
def announced : Text := .scalar '9' :: List.replicate 399 (.scalar '9')

def record : Record := ⟨.int 7, "h/7.png", none, []⟩

/-- An answer that announces the number and sends one byte, and then may break off. -/
def answer (break? : Option Text) : ImageAnswer :=
  ⟨200, [("content-length", announced)], [.data (Text.bytes "x")], break?⟩

def server (break? : Option Text) : ImageServer := [("7.png", ⟨false, .ok (answer break?)⟩)]

def disk : Disk := ⟨[], [(["d"], .folder)]⟩

theorem target_record : record.target "SD" = ⟨"h/7.png", "7.png"⟩ := rfl

theorem transfer_record (hasBar : Bool) :
    record.transfer "SD" "d" hasBar = ⟨.int 7, "h/7.png", "d/7.png", hasBar⟩ := by
  rw [Record.transfer, target_record]
  rfl

theorem replyTo_server (break? : Option Text) :
    (server break?).replyTo "h/7.png" = ⟨false, .ok (answer break?)⟩ := rfl

theorem hasFolder_disk : disk.hasFolder "d" = true := by decide +kernel

theorem isEncodable_fileName : (record.target "SD").fileName.isEncodable = true := by
  rw [target_record]
  decide

theorem ordinary_server (break? : Option Text) :
    ((server break?).replyTo (record.target "SD").url).IsOrdinary := by
  rw [target_record, replyTo_server]
  exact nofun

theorem at?_disk (hasBar : Bool) : disk.at? (record.transfer "SD" "d" hasBar).path = none := by
  rw [transfer_record]
  show disk.at? "d/7.png" = none
  decide +kernel

theorem hasEntry_disk (hasBar : Bool) :
    disk.hasEntry (record.transfer "SD" "d" hasBar).path = false := by
  rw [Disk.hasEntry, at?_disk]
  rfl

theorem read_announced :
    Whole.read announced = .ok (Whole.ofDigits (List.replicate 400 9) : Nat) := by
  have htrim : announced.trim Whole.isPadding = announced := by decide +kernel
  have hmagnitude : Whole.magnitude announced = .ok (Whole.ofDigits (List.replicate 400 9)) :=
    Whole.magnitude_of_digits (by decide +kernel) (by decide +kernel) (by decide +kernel)
  rw [Whole.read, htrim]
  dsimp only [announced] at hmagnitude ⊢
  rw [if_neg (by decide), if_neg (by decide), hmagnitude]
  rfl

theorem outgrowsBar (break? : Option Text) :
    ImageReply.OutgrowsBar ⟨false, .ok (answer break?)⟩ :=
  ⟨_, _, rfl, Transfer.announced_of_read rfl (List.cons_ne_nil _ _) read_announced,
    by decide +kernel⟩

/-- Nothing but the length is in the way of this file. -/
theorem not_fails : ¬ ImageReply.Fails ⟨false, .ok (answer none)⟩ := by
  intro h
  cases h with
  | request fault failed => cases failed
  | status a answer refused =>
    cases answer
    revert refused
    decide
  | length a answer t header nonempty fault unread =>
    cases answer
    cases header
    cases unread.symm.trans read_announced
  | body a answer message broken whole =>
    cases answer
    cases broken

/-- With a bar, a download may fail where without one it would not. -/
theorem not_without_bar : ¬ ∀ (r : Record) (quality folder : Text) (hasBar : Bool) (d : Disk)
    (server : ImageServer), d.hasFolder folder = true →
      (r.target quality).fileName.isEncodable = true →
      (server.replyTo (r.target quality).url).IsOrdinary →
      d.hasEntry (r.transfer quality folder hasBar).path = false →
      ((∃ e, ((r.transfer quality folder hasBar).start d true server).progress
          = .ended (.failed e)) ↔
        (server.replyTo (r.target quality).url).Fails
          ∨ ∃ fault, d.openFile (r.transfer quality folder hasBar).path = .error fault) := by
  intro h
  have hiff := h record "SD" "d" true disk (server none) hasFolder_disk isEncodable_fileName
    (ordinary_server none) (hasEntry_disk true)
  obtain ⟨R, hR⟩ := Disk.exists_isFolder hasFolder_disk
  have hgoes := record.goesTo hR isEncodable_fileName true
  have hlarge : ((server none).replyTo (record.transfer "SD" "d" true).url).OutgrowsBar := by
    rw [transfer_record, replyTo_server]
    exact outgrowsBar none
  have hfailed := (hgoes.start_fails_iff (at?_disk true) (ordinary_server none)).mpr
    (.inr ⟨rfl, hlarge⟩)
  rcases hiff.mp hfailed with hreply | ⟨fault, hfault⟩
  · rw [target_record, replyTo_server] at hreply
    exact not_fails hreply
  · rw [transfer_record] at hfault
    have hopen : (disk.openFile "d/7.png").isOk = true := by decide +kernel
    rw [hfault] at hopen
    cases hopen

/-- At an answer that breaks off. -/
theorem start_all_or_nothing_cut :
    let t := record.transfer "SD" "d" false
    let step := t.start disk true (server (some "cut"))
    step.log.requests = [t.request]
      ∧ ∃ cause, step.progress = .ended (.failed ⟨.int 7, cause⟩) ∧ Disk.Same disk step.disk := by
  obtain ⟨-, hfree⟩ := Transfer.start_all_or_nothing record "SD" "d" false disk
    (server (some "cut")) hasFolder_disk isEncodable_fileName (ordinary_server _)
  obtain ⟨hrequests, hout, hiff⟩ := hfree (hasEntry_disk false)
  have hcut : ((server (some "cut")).replyTo (record.transfer "SD" "d" false).url).Fails := by
    rw [transfer_record, replyTo_server]
    refine .body _ rfl "cut" rfl fun hempty => ?_
    cases List.mem_singleton.mp hempty
  obtain ⟨e, hfailed⟩ := hiff.mpr (.inl (.inl hcut))
  rcases hout with ⟨hsaved, -⟩ | hsame
  · cases hsaved.symm.trans hfailed
  · exact ⟨hrequests, hsame⟩

end LongLength

end GalleryScan
