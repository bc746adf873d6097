import GalleryScan.Proofs.Download.Quiet
import GalleryScan.Proofs.Download.Stepping
import GalleryScan.Proofs.Gallery.FileName

/-!
# The quality changes the address, not the file

In high quality the leftmost width in an image's address gives way to the wish for the image in full
size, with all its digits, and nothing else changes. An extension begins with a point, and there is
none in a width nor in what takes its place, which are both too long for an extension to reach
across. So both addresses end in the same extension:

> `extensionOf (unresized url) = extensionOf url`

and with it the image's file has the same name in every quality. What was downloaded in one quality
is not downloaded again in another.
-/

set_option autoImplicit false

namespace GalleryScan

/-! ## The leftmost width -/

/-- A width stands at the front: the mark, and at least one digit. -/
def Text.BeginsWithWidth (t : Text) : Prop :=
  ∃ c u, t = widthMark ++ c :: u ∧ c.isDecimal = true

/-- The second address is the first one with its leftmost width, and all digits of it, replaced by
the wish for the image in full size. Without a width they are the same. -/
inductive Unresized : Text → Text → Prop where
  | same (url : Text) (none : ∀ p q, url = p ++ q → ¬ q.BeginsWithWidth) : Unresized url url
  | replaced (before digits after : Text) (some : digits ≠ [])
      (digital : ∀ c ∈ digits, c.isDecimal = true)
      (all : ∀ c ∈ after.head?, c.isDecimal = false)
      (leftmost : ∀ p q, before ++ (widthMark ++ digits ++ after) = p ++ q →
        p.length < before.length → ¬ q.BeginsWithWidth) :
      Unresized (before ++ (widthMark ++ digits ++ after)) (before ++ (fullSizeMark ++ after))

section Replacing

variable {c : CodePoint} {t u url digits before after : Text}

theorem beginsWithWidth_iff : t.BeginsWithWidth ↔ (widthMark.isPrefixOf t
    && (t.drop widthMark.length).head?.any CodePoint.isDecimal) = true := by
  rw [Bool.and_eq_true, List.isPrefixOf_iff_prefix]
  constructor
  · rintro ⟨c, u, rfl, hc⟩
    exact ⟨List.prefix_append .., by rw [List.drop_left]; exact hc⟩
  · rintro ⟨⟨u, rfl⟩, hdigit⟩
    rw [List.drop_left] at hdigit
    cases u with
    | nil => cases hdigit
    | cons c u => exact ⟨c, u, rfl, hdigit⟩

theorem not_beginsWithWidth_nil : ¬ Text.BeginsWithWidth [] := by
  rw [beginsWithWidth_iff]
  decide

theorem unresized_cons (h : ¬ Text.BeginsWithWidth (c :: t)) :
    unresized (c :: t) = c :: unresized t := by
  rw [beginsWithWidth_iff] at h
  exact if_neg h

theorem unresized_of_beginsWithWidth (h : t.BeginsWithWidth) : unresized t
    = fullSizeMark ++ (t.drop widthMark.length).dropWhile CodePoint.isDecimal := by
  cases t with
  | nil => exact absurd h not_beginsWithWidth_nil
  | cons c t =>
    rw [beginsWithWidth_iff] at h
    exact if_pos h

theorem unresized_width (some : digits ≠ []) (digital : ∀ c ∈ digits, c.isDecimal = true)
    (all : ∀ c ∈ after.head?, c.isDecimal = false) :
    unresized (widthMark ++ digits ++ after) = fullSizeMark ++ after := by
  have hwidth : Text.BeginsWithWidth (widthMark ++ digits ++ after) := by
    cases digits with
    | nil => exact absurd rfl some
    | cons c digits =>
      exact ⟨c, digits ++ after, List.append_assoc .., digital c (List.mem_cons_self ..)⟩
  rw [unresized_of_beginsWithWidth hwidth, List.append_assoc, List.drop_left,
    List.dropWhile_append_of_pos digital, Text.dropWhile_of_head all]

/-- The signs in front of which no width begins stay. -/
theorem unresized_append (h : ∀ p q, before ++ t = p ++ q → p.length < before.length →
    ¬ q.BeginsWithWidth) : unresized (before ++ t) = before ++ unresized t := by
  induction before with
  | nil => rfl
  | cons c before ih =>
    have hc : ¬ Text.BeginsWithWidth (c :: (before ++ t)) := h [] _ rfl (Nat.succ_pos _)
    rw [List.cons_append, unresized_cons hc, ih, List.cons_append]
    intro p q hsplit hshort
    exact h (c :: p) q (congrArg (c :: ·) hsplit) (Nat.succ_lt_succ hshort)

theorem Unresized.eq (h : Unresized url u) : unresized url = u := by
  cases h with
  | same _ none =>
    have hnone : unresized (u ++ []) = u ++ unresized [] := unresized_append fun p q hsplit _ =>
      none p q ((List.append_nil u).symm.trans hsplit)
    rwa [List.append_nil, unresized, List.append_nil] at hnone
  | replaced before digits after some digital all leftmost =>
    rw [unresized_append leftmost, unresized_width some digital all]

/-- A width at the front is the leftmost one. -/
theorem Unresized.of_beginsWithWidth (h : t.BeginsWithWidth) : Unresized t (unresized t) := by
  obtain ⟨c, u, rfl, hc⟩ := h
  -- Cut behind the last digit, so that none is left over.
  have hdigits : (c :: u).takeWhile CodePoint.isDecimal ≠ [] := by
    rw [List.takeWhile_cons_of_pos hc]
    exact nofun
  have hsplit : widthMark ++ c :: u = widthMark ++ (c :: u).takeWhile CodePoint.isDecimal
      ++ (c :: u).dropWhile CodePoint.isDecimal := by
    rw [List.append_assoc, List.takeWhile_append_dropWhile]
  have hreplaced := Unresized.replaced [] _ _ hdigits (fun _ => List.mem_takeWhile_imp)
    (fun _ => Text.out_of_head_dropWhile (t := c :: u)) fun _ _ _ hshort => nomatch hshort
  rw [List.nil_append, ← hsplit] at hreplaced
  rwa [hreplaced.eq]

/-- A sign in front of which no width begins stays. -/
theorem Unresized.cons (h : Unresized t u) (hc : ¬ Text.BeginsWithWidth (c :: t)) :
    Unresized (c :: t) (c :: u) := by
  have hlater : ∀ {p q : Text}, c :: t = p ++ q → (∀ p', t = p' ++ q → p'.length + 1 = p.length →
      ¬ q.BeginsWithWidth) → ¬ q.BeginsWithWidth := by
    intro p q hsplit hrest
    rcases List.cons_eq_append_iff.mp hsplit with ⟨rfl, rfl⟩ | ⟨p', rfl, hp⟩
    · exact hc
    · exact hrest p' hp rfl
  cases h with
  | same _ none => exact .same _ fun p q hsplit => hlater hsplit fun p' hp _ => none p' q hp
  | replaced before digits after some digital all leftmost =>
    refine .replaced (c :: before) digits after some digital all fun p q hsplit hshort => ?_
    refine hlater hsplit fun p' hp hlength => leftmost p' q hp ?_
    rw [List.length_cons] at hshort
    omega

theorem unresized_unresized (url : Text) : Unresized url (unresized url) := by
  induction url with
  | nil =>
    refine .same [] fun p q hsplit => ?_
    obtain ⟨rfl, rfl⟩ := List.append_eq_nil_iff.mp hsplit.symm
    exact not_beginsWithWidth_nil
  | cons c t ih =>
    by_cases hwidth : Text.BeginsWithWidth (c :: t)
    · exact .of_beginsWithWidth hwidth
    · rw [unresized_cons hwidth]
      exact ih.cons hwidth

/-- The address in high quality is this one and no other. -/
theorem unresized_eq_iff : unresized url = u ↔ Unresized url u :=
  ⟨fun h => h ▸ unresized_unresized url, Unresized.eq⟩

end Replacing

/-! ## The extension -/

section Extension

variable {e m : Text}

/-- What begins with a point does not reach across a text without points that is as long. -/
theorem suffix_append_iff (hpoint : e.head? = some (.scalar '.'))
    (hnone : CodePoint.scalar '.' ∉ m) (hlength : e.length ≤ m.length) (before after : Text) :
    e <:+ before ++ (m ++ after) ↔ e <:+ after := by
  constructor
  · intro h
    have hshort : e.length ≤ (m ++ after).length := by
      rw [List.length_append]
      omega
    obtain ⟨x, hx⟩ : e <:+ m ++ after :=
      List.suffix_of_suffix_length_le h (List.suffix_append ..) hshort
    rcases List.append_eq_append_iff.mp hx with ⟨y, rfl, rfl⟩ | ⟨y, rfl, rfl⟩
    -- Where it began in the text without points, its point would stand there.
    · cases y with
      | nil => exact List.suffix_rfl
      | cons c y =>
        cases hpoint
        exact absurd (List.mem_append_right x (List.mem_cons_self ..)) hnone
    · exact List.suffix_append ..
  · intro h
    exact (h.trans (List.suffix_append m after)).trans (List.suffix_append ..)

/-- The shortest width has seven signs. -/
theorem Unresized.endsWith {url u : Text} (h : Unresized url u)
    (hpoint : e.head? = some (.scalar '.')) (hlength : e.length ≤ 7) :
    Text.endsWith e u = Text.endsWith e url := by
  cases h with
  | same => rfl
  | replaced before digits after some digital all leftmost =>
    have hwidth : CodePoint.scalar '.' ∉ widthMark ++ digits := by
      rw [List.mem_append, not_or]
      refine ⟨by decide, fun hmem => ?_⟩
      cases digital _ hmem
    have hlong : 7 ≤ (widthMark ++ digits).length := by
      rw [List.length_append, show widthMark.length = 6 from rfl]
      have := List.length_pos_iff.mpr some
      omega
    rw [Bool.eq_iff_iff, Text.endsWith, Text.endsWith, List.isSuffixOf_iff_suffix,
      List.isSuffixOf_iff_suffix, suffix_append_iff hpoint hwidth (hlength.trans hlong),
      suffix_append_iff hpoint (by decide) (hlength.trans (by decide))]

theorem extensionOf_unresized (url : Text) : extensionOf (unresized url) = extensionOf url := by
  have h := unresized_unresized url
  rw [extensionOf, extensionOf, h.endsWith (by decide) (by decide),
    h.endsWith (by decide) (by decide)]

theorem extensionOf_sourceUrl (quality url : Text) :
    extensionOf (sourceUrl quality url) = extensionOf url := by
  rw [sourceUrl]
  split
  · exact extensionOf_unresized url
  · rfl

end Extension

/-! ## Switching the quality -/

namespace Transfer

variable {t : Transfer} {d : Disk}

theorem fail_ne_saved (cause : DownloadCause) : (t.fail d cause).progress ≠ .ended .saved := by
  unfold fail endWithout
  split <;> nofun

/-- A download ends well in its body or not at all. -/
theorem exists_receive_of_saved {gatesOpen : Bool} {reply : ImageReply}
    (h : (t.respond d gatesOpen reply).progress = .ended .saved) :
    ∃ d' break? chunks, d.openFile t.path = .ok d' ∧
      let body := t.receive gatesOpen break? d' .opened chunks
      body.progress = .ended .saved ∧ (t.respond d gatesOpen reply).disk = body.disk := by
  unfold respond at h ⊢
  split at h
  · split at h
    · cases h
    · exact absurd h (fail_ne_saved _)
  rename_i a hanswer
  split at h
  · exact absurd h (fail_ne_saved _)
  split at h
  · exact absurd h (fail_ne_saved _)
  rename_i hstatus _ length hlength
  cases hopen : d.openFile t.path with
  | error fault =>
    rw [hopen] at h
    exact absurd h (fail_ne_saved _)
  | ok d' =>
    rw [hopen] at h
    dsimp only at h ⊢
    split at h
    · exact absurd h (fail_ne_saved _)
    rename_i hbar
    refine ⟨d', a.break?, a.chunks, rfl, h, ?_⟩
    rw [if_neg hstatus]
    dsimp only
    rw [if_neg hbar]

/-- Then its file is there. -/
theorem hasEntry_of_saved {p n : Text} (hpath : t.path = Path.join p n) (hn : Path.IsName n)
    {gatesOpen : Bool} {server : ImageServer}
    (h : (t.start d gatesOpen server).progress = .ended .saved) :
    (t.start d gatesOpen server).disk.hasEntry t.path = true := by
  by_cases hentry : d.hasEntry t.path = true
  · rwa [start, if_pos hentry]
  rw [start, if_neg hentry] at h ⊢
  dsimp only at h ⊢
  split at h
  · cases h
  rename_i hgate
  rw [if_neg hgate]
  obtain ⟨d', break?, chunks, hopen, hsaved, hdisk⟩ := exists_receive_of_saved h
  rw [hpath] at hopen
  -- Opening the file has shown that the path leads to a name in a folder.
  obtain ⟨hcheck, R, hleads, hfolder, rfl⟩ := Disk.openFile_eq_ok hn hopen
  have hadvances := receive_advances hpath (Stream.holds_opened hleads hcheck hfolder) gatesOpen
    break? chunks
  have hright := hadvances.right
  rw [hsaved] at hright
  cases hright with
  | saved content whole there =>
    rw [hdisk, hpath, Disk.hasEntry, there]
    rfl

end Transfer

namespace Record

variable (r : Record)

theorem fileName_target (quality quality' : Text) :
    (r.target quality).fileName = (r.target quality').fileName := by
  rw [fileName_eq, fileName_eq, extensionOf_sourceUrl, extensionOf_sourceUrl]

/-- A download whose file is there from one quality is over at once in every other. -/
theorem start_of_entry {quality folder : Text} {hasBar : Bool} {d : Disk}
    (h : d.hasEntry (r.transfer quality folder hasBar).path = true) (quality' : Text)
    (hasBar' gatesOpen : Bool) (server : ImageServer) :
    let step := (r.transfer quality' folder hasBar').start d gatesOpen server
    step.progress = .ended .saved ∧ step.log.requests = [] ∧ step.disk = d := by
  intro step
  have hpath : (r.transfer quality' folder hasBar').path
      = (r.transfer quality folder hasBar).path :=
    congrArg (Path.join folder) (r.fileName_target quality' quality)
  rw [← hpath] at h
  have hrequests := (r.transfer quality' folder hasBar').requests_start d gatesOpen server
  rw [if_pos h] at hrequests
  obtain ⟨log, hstep⟩ : ∃ log, step = ⟨log, d, .ended .saved⟩ :=
    Transfer.start_of_entry (Option.isSome_iff_ne_none.mp h) gatesOpen server
  exact ⟨by rw [hstep], hrequests, by rw [hstep]⟩

/-- The standard quality takes the address as it is, and the high one replaces its leftmost width.
The file has the same name in all of them. It is there when a download has ended well, and where it
is there, a download is over at once in whichever quality, without a request and with nothing
changed on the disk. -/
theorem switching_quality :
    (∀ quality quality', (r.target quality).fileName = (r.target quality').fileName)
      ∧ (r.target "SD").url = r.url
      ∧ (∀ u, (r.target "HD").url = u ↔ Unresized r.url u)
      ∧ ∀ (quality folder : Text) (hasBar gatesOpen : Bool) (d : Disk) (server : ImageServer),
        let t := r.transfer quality folder hasBar
        ((t.start d gatesOpen server).progress = .ended .saved →
          (t.start d gatesOpen server).disk.hasEntry t.path = true)
        ∧ (d.hasEntry t.path = true → ∀ (quality' : Text) (hasBar' : Bool),
          let step := (r.transfer quality' folder hasBar').start d gatesOpen server
          step.progress = .ended .saved ∧ step.log.requests = [] ∧ step.disk = d) := by
  refine ⟨r.fileName_target, rfl, fun u => unresized_eq_iff, ?_⟩
  intro quality folder hasBar gatesOpen d server t
  refine ⟨Transfer.hasEntry_of_saved rfl (r.isName_fileName quality), fun h quality' hasBar' => ?_⟩
  exact r.start_of_entry h quality' hasBar' gatesOpen server

end Record

namespace Widened

def record : Record := ⟨.int 7, "h/width=450/7.png", none, []⟩

def server : ImageServer := [("7.png", ⟨false, .ok ⟨200, [], [.data (Text.bytes "x")], none⟩⟩)]

def disk : Disk := ⟨[], [(["d"], .folder)]⟩

theorem saved :
    ((record.transfer "SD" "d" false).start disk true server).progress = .ended .saved := by
  rfl

/-- After a download in standard quality there is nothing left to do in high quality. -/
theorem switching_quality_widened :
    (record.target "HD").url = "h/original=true/7.png"
      ∧ (record.target "SD").url = "h/width=450/7.png"
      ∧ (record.target "HD").fileName = (record.target "SD").fileName
      ∧ let step := (record.transfer "SD" "d" false).start disk true server
        let step' := (record.transfer "HD" "d" true).start step.disk true []
        step'.progress = .ended .saved ∧ step'.log.requests = [] ∧ step'.disk = step.disk := by
  obtain ⟨hname, hstandard, hhigh, hentry⟩ := record.switching_quality
  have hthere := (hentry "SD" "d" false true disk server).1 saved
  have hagain := (hentry "SD" "d" false true _ []).2 hthere "HD" true
  exact ⟨(hhigh _).mpr (unresized_eq_iff.mp (by decide)), hstandard, hname _ _, hagain⟩

end Widened

end GalleryScan
