import GalleryScan.Cache.Store
import GalleryScan.Proofs.Disk.Changing
import GalleryScan.Proofs.Disk.Spelling
import Mathlib.Data.List.Nodup
import Mathlib.Data.List.Perm.Subperm
import Mathlib.Data.Nat.Find

/-!
# What saving leaves on the disk

A draft's name is new in its folder, so that after a save nothing of the draft is left, and of the
disk nothing has changed but the entry of the cache file:

> `c.write d = (d', .ok ()) → d' = d.put (S ++ [fileName]) (.file content)`

Saved once more with the same entries the cache chooses the same draft, and the disk stays as it is.
-/

set_option autoImplicit false

namespace GalleryScan

namespace Path

theorem normal_ne_nil (p : Text) : normal p ≠ [] := by
  unfold normal
  dsimp only
  split
  · decide
  · assumption

end Path

namespace Cache

/-! ## Names of drafts -/

theorem isEncodable_draftName (stars : Nat) : (draftName stars).isEncodable = true := by
  rw [Text.isEncodable, List.all_eq_true]
  intro c hc
  simp only [draftName, List.mem_append, List.mem_replicate] at hc
  rcases hc with (hc | ⟨_, rfl⟩) | hc
  · revert c
    decide
  · rfl
  · revert c
    decide

theorem length_draftName (stars : Nat) : (draftName stars).length = stars + 14 := by
  simp only [draftName, List.length_append, List.length_replicate]
  show 10 + stars + 4 = stars + 14
  omega

theorem draftName_injective {j k : Nat} (h : draftName j = draftName k) : j = k := by
  have := congrArg List.length h
  rw [length_draftName, length_draftName] at this
  omega

theorem isName_draftName (stars : Nat) : Path.IsName (draftName stars) := by
  have hlength := length_draftName stars
  refine ⟨?_, ?_, ?_, ?_⟩
  · intro hc
    simp only [draftName, List.mem_append, List.mem_replicate] at hc
    rcases hc with (hc | ⟨_, hc⟩) | hc
    · revert hc
      decide
    · revert hc
      decide
    · revert hc
      decide
  all_goals
    intro h
    rw [h] at hlength
    revert hlength
    simp [Text.ofString]

theorem isName_fileName : Path.IsName fileName := by
  refine ⟨?_, ?_, ?_, ?_⟩ <;> decide

theorem onDisk_fileName : Path.onDisk fileName = fileName :=
  Path.onDisk_of_isEncodable (by decide)

theorem onDisk_draftName (stars : Nat) : Path.onDisk (draftName stars) = draftName stars :=
  Path.onDisk_of_isEncodable (isEncodable_draftName stars)

theorem draftName_ne_fileName (stars : Nat) : draftName stars ≠ fileName := by
  intro h
  have := congrArg List.head? h
  revert this
  simp [draftName, fileName, Text.ofString]

/-! ## The draft that is free -/

/-- Among one name more than there are, one is free. -/
theorem exists_free (names : List Text) : ∃ k ≤ names.length, draftName (k + 1) ∉ names := by
  by_contra hall
  simp only [not_exists, not_and, not_not] at hall
  have hnodup : ((List.range (names.length + 1)).map fun k => draftName (k + 1)).Nodup :=
    List.nodup_range.map fun j k h => Nat.succ.inj (draftName_injective h)
  have hsub : (List.range (names.length + 1)).map (fun k => draftName (k + 1)) ⊆ names := by
    intro n hn
    obtain ⟨k, hk, rfl⟩ := List.mem_map.mp hn
    exact hall k (Nat.le_of_lt_succ (List.mem_range.mp hk))
  have hlength := (List.subperm_of_subset hnodup hsub).length_le
  rw [List.length_map, List.length_range] at hlength
  omega

/-- The number of stars is the least one whose name is free. -/
theorem freeStars_eq {names : List Text} {k : Nat} (hk : k ≤ names.length)
    (hfree : draftName (k + 1) ∉ names) (hleast : ∀ j < k, draftName (j + 1) ∈ names) :
    freeStars names = k + 1 := by
  have hfind : ((List.range names.length).find? fun k => !names.contains (draftName (k + 1))).getD
      names.length = k := by
    by_cases hlt : k < names.length
    · rw [List.find?_range_eq_some.mpr]
      · rfl
      · exact ⟨by simpa using hfree, List.mem_range.mpr hlt, fun j hj => by simpa using hleast j hj⟩
    · obtain rfl : k = names.length := by omega
      rw [List.find?_range_eq_none.mpr fun j hj => by simpa using hleast j hj]
      rfl
  rw [freeStars]
  exact congrArg (· + 1) hfind

theorem exists_freeStars (names : List Text) : ∃ k ≤ names.length,
    draftName (k + 1) ∉ names ∧ (∀ j < k, draftName (j + 1) ∈ names)
      ∧ freeStars names = k + 1 := by
  obtain ⟨hk, hfree⟩ := Nat.find_spec (exists_free names)
  have hleast : ∀ j < Nat.find (exists_free names), draftName (j + 1) ∈ names := by
    intro j hj
    have := Nat.find_min (exists_free names) hj
    by_contra hmem
    exact this ⟨by omega, hmem⟩
  exact ⟨_, hk, hfree, hleast, freeStars_eq hk hfree hleast⟩

theorem draftName_freeStars (names : List Text) : draftName (freeStars names) ∉ names := by
  obtain ⟨k, _, hfree, _, hk⟩ := exists_freeStars names
  rwa [hk]

/-- A further name that is no draft's does not change the choice. -/
theorem freeStars_concat {names : List Text} {n : Text} (hn : ∀ k, draftName k ≠ n) :
    freeStars (names ++ [n]) = freeStars names := by
  obtain ⟨k, hle, hfree, hleast, hk⟩ := exists_freeStars names
  rw [hk]
  refine freeStars_eq ?_ ?_ fun j hj => List.mem_append_left _ (hleast j hj)
  · rw [List.length_append]
    omega
  · rw [List.mem_append, not_or, List.mem_singleton]
    exact ⟨hfree, hn _⟩

/-! ## Names in a folder -/

theorem mem_namesIn_iff {d : Disk} {R : Route} {n : Text} :
    n ∈ d.namesIn R ↔ ∃ e, (R ++ [n], e) ∈ d.entries := by
  rw [Disk.namesIn, List.mem_filterMap]
  constructor
  · rintro ⟨⟨r, e⟩, hx, hname⟩
    dsimp only at hname
    split at hname
    · rename_i hr
      obtain ⟨front, rfl⟩ := List.getLast?_eq_some_iff.mp hname
      rw [List.dropLast_concat] at hr
      exact ⟨e, hr ▸ hx⟩
    · cases hname
  · rintro ⟨e, hx⟩
    exact ⟨_, hx, by simp⟩

theorem namesIn_replaced (es : List (Route × Entry)) (s : Route) (e : Entry) (R : Route) :
    (es.map fun x => if x.1 = s then (s, e) else x).filterMap
        (fun x => if x.1.dropLast = R then x.1.getLast? else none)
      = es.filterMap fun x => if x.1.dropLast = R then x.1.getLast? else none := by
  rw [List.filterMap_map]
  apply List.filterMap_congr
  intro x _
  dsimp only [Function.comp]
  split
  · rename_i hx
    rw [hx]
  · rfl

/-- Putting an entry changes the names in a folder at most by the entry's own, at the end. -/
theorem namesIn_put (d : Disk) (S R : Route) (n : Text) (e : Entry) :
    (d.put (S ++ [n]) e).namesIn R = d.namesIn R
      ∨ (d.put (S ++ [n]) e).namesIn R = d.namesIn R ++ [n] := by
  unfold Disk.namesIn Disk.put
  dsimp only
  split
  · exact .inl (namesIn_replaced _ _ _ _)
  · rw [List.filterMap_append]
    by_cases hS : S = R
    · exact .inr (by simp [hS])
    · exact .inl (by simp [hS])

/-! ## Putting what is not there, and putting again -/

/-- The entry that is put last is the one that stays. -/
theorem put_put (d : Disk) (s : Route) (e e' : Entry) : (d.put s e).put s e' = d.put s e' := by
  have hany : (d.put s e).entries.any (·.1 = s) = true := by
    unfold Disk.put
    dsimp only
    split
    · rename_i h
      obtain ⟨x, hx, hs⟩ := List.any_eq_true.mp h
      refine List.any_eq_true.mpr ⟨(s, e), List.mem_map.mpr ⟨x, hx, ?_⟩, by simp⟩
      rw [if_pos (by simpa using hs)]
    · simp
  have hsame : (d.put s e).entries.map (fun x => if x.1 = s then (s, e') else x)
      = (d.put s e').entries := by
    unfold Disk.put
    dsimp only
    split
    · rw [List.map_map]
      apply List.map_congr_left
      intro x _
      dsimp only [Function.comp]
      split <;> simp_all
    · rename_i h
      rw [List.map_append]
      congr 1
      · refine (List.map_congr_left fun x hx => if_neg fun hs => h ?_).trans (List.map_id _)
        exact List.any_eq_true.mpr ⟨x, hx, by simpa using hs⟩
      · simp
  rw [Disk.put, if_pos hany, hsame]
  rfl

theorem erase_put_new {d : Disk} {r : Route} (h : ∀ x ∈ d.entries, x.1 ≠ r) (e : Entry) :
    (d.put r e).erase r = d := by
  have hnone : ¬ d.entries.any (·.1 = r) = true := by
    simp only [List.any_eq_true, decide_eq_true_eq, not_exists, not_and]
    exact h
  have hkept : d.entries.filter (fun x => x.1 ≠ r) = d.entries :=
    List.filter_eq_self.mpr fun x hx => by simpa using h x hx
  rw [Disk.erase, Disk.put, if_neg hnone]
  dsimp only
  rw [List.filter_append, hkept]
  simp

/-! ## Writing -/

variable (c : Cache) (d : Disk)

/-- The folder of a draft. -/
def draftFolder : Text := Path.absolute d.herePath c.folder

/-- The name of a draft. -/
def draft : Text := draftName (freeStars ((d.list (c.draftFolder d)).toOption.getD []))

theorem draftFolder_ne_nil : c.draftFolder d ≠ [] := Path.normal_ne_nil _

/-- What a cache can be saved on: the draft's name leads to a free place, the cache file's to no
folder, and all texts have a form in bytes. -/
structure Savable (content : Bytes) (R S : Route) : Prop where
  draft : d.Leads (c.draftFolder d) (c.draft d) R
  draftPath : Disk.checkPath (c.draftPath d) = .ok ()
  free : d.entry? (R ++ [c.draft d]) ≠ some .folder
  file : d.Leads c.folder fileName S
  filePath : Disk.checkPath c.path = .ok ()
  noFolder : d.entry? (S ++ [fileName]) ≠ some .folder
  content : encodePieces (c.entries.document.pieces 0) = .ok content

variable {c d} {content : Bytes} {R S : Route}

/-- The draft is in none of the entries. -/
theorem draft_notMem (h : d.Leads (c.draftFolder d) (c.draft d) R)
    (hcheck : Disk.checkPath (c.draftPath d) = .ok ()) :
    ∀ x ∈ d.entries, x.1 ≠ R ++ [c.draft d] := by
  rintro ⟨r, e⟩ hx rfl
  have hlist := h.list hcheck (c.draftFolder_ne_nil d)
  have hfree : c.draft d ∉ (d.list (c.draftFolder d)).toOption.getD [] := draftName_freeStars _
  rw [hlist] at hfree
  exact hfree (mem_namesIn_iff.mpr ⟨e, hx⟩)

theorem draft_ne_file : R ++ [c.draft d] ≠ S ++ [fileName] := by
  intro h
  have := congrArg List.getLast? h
  rw [List.getLast?_concat, List.getLast?_concat, Option.some.injEq] at this
  exact draftName_ne_fileName _ this

/-- The draft's name stays free for it while it is there. -/
theorem leads_draft (h : d.Leads (c.draftFolder d) (c.draft d) R)
    (hfree : d.entry? (R ++ [c.draft d]) ≠ some .folder) (b : Bytes) :
    (d.put (R ++ [c.draft d]) (.file b)).Leads (c.draftFolder d) (c.draft d) R
      ∧ Disk.entry? (d.put (R ++ [c.draft d]) (.file b)) (R ++ [Path.onDisk (c.draft d)])
        = some (.file b) := by
  refine ⟨h.mono rfl fun T hT => Disk.folder_put hfree _ hT, ?_⟩
  rw [draft, onDisk_draftName]
  exact Disk.entry?_put_self hfree _

theorem writeFile_draft (h : d.Leads (c.draftFolder d) (c.draft d) R)
    (hfree : d.entry? (R ++ [c.draft d]) ≠ some .folder) (content : Bytes) :
    (d.put (R ++ [c.draft d]) (.file [])).writeFile (c.draftPath d) content
      = d.put (R ++ [c.draft d]) (.file content) := by
  have hempty := leads_draft h hfree []
  have hname : Path.onDisk (c.draft d) = c.draft d := onDisk_draftName _
  rw [show c.draftPath d = Path.join (c.draftFolder d) (c.draft d) from rfl,
    hempty.1.writeFile hempty.2, hname, put_put]

theorem discard_draft (h : d.Leads (c.draftFolder d) (c.draft d) R)
    (hcheck : Disk.checkPath (c.draftPath d) = .ok ())
    (hfree : d.entry? (R ++ [c.draft d]) ≠ some .folder) (content : Bytes) :
    discard (d.put (R ++ [c.draft d]) (.file content)) (c.draftPath d) = d := by
  have hname : Path.onDisk (c.draft d) = c.draft d := onDisk_draftName _
  obtain ⟨hleads, hentry⟩ := leads_draft h hfree content
  have hremove : (d.put (R ++ [c.draft d]) (.file content)).removeFile (c.draftPath d)
      = .ok ((d.put (R ++ [c.draft d]) (.file content)).erase (R ++ [c.draft d])) := by
    have := hleads.removeFile hcheck hentry
    rwa [hname] at this
  rw [discard, hremove, erase_put_new (draft_notMem h hcheck)]
  rfl

/-- A save that can be made changes the entry of the cache file and nothing else. -/
theorem Savable.write (h : c.Savable d content R S) :
    c.write d = (d.put (S ++ [fileName]) (.file content), .ok ()) := by
  have hname : Path.onDisk (c.draft d) = c.draft d := onDisk_draftName _
  have hfile : Path.onDisk fileName = fileName := onDisk_fileName
  have hne : S ++ [fileName] ≠ R ++ [c.draft d] := fun he => draft_ne_file he.symm
  have hopen : d.openFile (c.draftPath d) = .ok (d.put (R ++ [c.draft d]) (.file [])) := by
    have := h.draft.openFile h.draftPath (by rw [hname]; exact h.free)
    rwa [hname] at this
  have hnamed := leads_draft h.draft h.free content
  have hmoved : (d.put (R ++ [c.draft d]) (.file content)).Leads c.folder fileName S :=
    h.file.mono rfl fun T hT => Disk.folder_put h.free _ hT
  have hlocate := hmoved.locate
  rw [hfile] at hlocate
  have herased : ((d.put (R ++ [c.draft d]) (.file content)).erase (R ++ [c.draft d])).put
      (S ++ [fileName]) (.file content) = d.put (S ++ [fileName]) (.file content) := by
    rw [erase_put_new (draft_notMem h.draft h.draftPath)]
  have hmove : (d.put (R ++ [c.draft d]) (.file content)).moveFile (c.draftPath d) c.path
      = .ok (d.put (S ++ [fileName]) (.file content)) := by
    rw [← herased, Disk.moveFile, h.draftPath, h.filePath]
    dsimp only [bind, Except.bind]
    rw [show c.draftPath d = Path.join (c.draftFolder d) (c.draft d) from rfl, hnamed.1.locate,
      Disk.spot_of_some hnamed.2, hname, show c.path = Path.join c.folder fileName from rfl,
      hlocate]
    cases hentry : Disk.entry? (d.put (R ++ [c.draft d]) (.file content)) (S ++ [fileName]) with
    | none => rw [Disk.spot_of_none hentry]
    | some e =>
      cases e with
      | folder =>
        rw [Disk.entry?_put_other hne] at hentry
        exact absurd hentry h.noFolder
      | file old =>
        rw [Disk.spot_of_some hentry]
        dsimp only
        rw [if_neg (Ne.symm hne)]
  rw [Cache.write]
  dsimp only
  rw [hopen]
  dsimp only
  rw [h.content]
  dsimp only
  rw [writeFile_draft h.draft h.free, hmove]

/-- What a draft has been moved to is at a path that leads to no folder. -/
theorem moveFile_eq_ok {d d' : Disk} {p q : Text} (h : d.moveFile p q = .ok d') :
    Disk.checkPath q = .ok () ∧ ∃ s, d.locate q = .ok s ∧ ∀ r, s ≠ .taken r .folder := by
  rw [Disk.moveFile] at h
  cases hp : Disk.checkPath p with
  | error fault =>
    rw [hp] at h
    cases h
  | ok _ =>
    cases hq : Disk.checkPath q with
    | error fault =>
      rw [hp, hq] at h
      cases h
    | ok _ =>
      rw [hp, hq] at h
      dsimp only [bind, Except.bind] at h
      refine ⟨rfl, ?_⟩
      split at h
      · rename_i hs
        exact ⟨_, hs, fun r => by simp⟩
      · rename_i hs
        exact ⟨_, hs, fun r => by simp⟩
      all_goals cases h

theorem openFile_draft_eq_ok {d₁ : Disk} (h : d.openFile (c.draftPath d) = .ok d₁) :
    Disk.checkPath (c.draftPath d) = .ok () ∧ ∃ R, d.Leads (c.draftFolder d) (c.draft d) R
      ∧ d.entry? (R ++ [c.draft d]) ≠ some .folder
      ∧ d₁ = d.put (R ++ [c.draft d]) (.file []) := by
  obtain ⟨hcheck, R, hleads, hfree, hd⟩ :=
    Disk.openFile_eq_ok (p := c.draftFolder d) (n := c.draft d) (isName_draftName _) h
  have hname : Path.onDisk (c.draft d) = c.draft d := onDisk_draftName _
  rw [hname] at hfree hd
  exact ⟨hcheck, R, hleads, hfree, hd⟩

/-- Where the draft can be moved to the path of the cache file, the save can be made. -/
theorem savable_of_moveFile {d' : Disk} (hdraft : d.Leads (c.draftFolder d) (c.draft d) R)
    (hcheck : Disk.checkPath (c.draftPath d) = .ok ())
    (hfree : d.entry? (R ++ [c.draft d]) ≠ some .folder)
    (hcontent : encodePieces (c.entries.document.pieces 0) = .ok content)
    (hmove : Disk.moveFile (d.put (R ++ [c.draft d]) (.file content)) (c.draftPath d) c.path
      = .ok d') :
    ∃ S, c.Savable d content R S := by
  obtain ⟨hfile, s, hlocate, hs⟩ := moveFile_eq_ok hmove
  obtain ⟨S, hS, rfl⟩ := Disk.leads_of_locate isName_fileName hlocate
  rw [onDisk_fileName] at hs
  -- The draft is no folder, so the path leads the same way without it.
  have hbelow : ∀ T, Disk.entry? (d.put (R ++ [c.draft d]) (.file content)) T = some .folder →
      d.entry? T = some .folder := by
    intro T hT
    by_cases hTR : T = R ++ [c.draft d]
    · rw [hTR, Disk.entry?_put_self hfree] at hT
      cases hT
    · rwa [Disk.entry?_put_other hTR] at hT
  refine ⟨S, hdraft, hcheck, hfree, hS.mono rfl hbelow, hfile, ?_, hcontent⟩
  intro hfolder
  exact hs _ (Disk.spot_of_some (Disk.folder_put hfree _ hfolder))

/-- A save fails and leaves the disk as it was, or it is one that can be made. -/
theorem write_cases (c : Cache) (d : Disk) :
    (∃ fault, c.write d = (d, .error fault)) ∨ ∃ content R S, c.Savable d content R S := by
  rw [Cache.write]
  dsimp only
  cases hopen : d.openFile (c.draftPath d) with
  | error fault => exact .inl ⟨_, rfl⟩
  | ok d₁ =>
    obtain ⟨hcheck, R, hleads, hfree, rfl⟩ := openFile_draft_eq_ok hopen
    cases hcontent : encodePieces (c.entries.document.pieces 0) with
    | error fault =>
      dsimp only
      rw [discard_draft hleads hcheck hfree]
      exact .inl ⟨_, rfl⟩
    | ok content =>
      dsimp only
      rw [writeFile_draft hleads hfree]
      cases hmove : Disk.moveFile (d.put (R ++ [c.draft d]) (.file content)) (c.draftPath d)
          c.path with
      | error fault =>
        dsimp only
        rw [discard_draft hleads hcheck hfree]
        exact .inl ⟨_, rfl⟩
      | ok d₃ =>
        obtain ⟨S, hsavable⟩ := savable_of_moveFile hleads hcheck hfree hcontent hmove
        exact .inr ⟨content, R, S, hsavable⟩

/-- A save that succeeds is one that could be made. -/
theorem savable_of_write {d' : Disk} (h : c.write d = (d', .ok ())) :
    ∃ content R S, c.Savable d content R S := by
  rcases c.write_cases d with ⟨fault, hfails⟩ | hsavable
  · cases h.symm.trans hfails
  · exact hsavable

/-- After a save the same content can be saved again, by way of the same draft. -/
theorem Savable.again (h : c.Savable d content R S) :
    c.Savable (d.put (S ++ [fileName]) (.file content)) content R S := by
  have hmono : ∀ {p n T}, d.Leads p n T → (d.put (S ++ [fileName]) (.file content)).Leads p n T :=
    fun hleads => hleads.mono rfl fun T hT => Disk.folder_put h.noFolder _ hT
  have hdraft : c.draft (d.put (S ++ [fileName]) (.file content)) = c.draft d := by
    have hlist := h.draft.list h.draftPath (c.draftFolder_ne_nil d)
    have hlist' := (hmono h.draft).list h.draftPath (c.draftFolder_ne_nil d)
    show draftName (freeStars ((Disk.list _ (c.draftFolder d)).toOption.getD []))
      = draftName (freeStars ((Disk.list d (c.draftFolder d)).toOption.getD []))
    rw [hlist', hlist]
    show draftName (freeStars (Disk.namesIn _ R)) = draftName (freeStars (d.namesIn R))
    rcases namesIn_put d S R fileName (.file content) with hnames | hnames
    · rw [hnames]
    · rw [hnames, freeStars_concat fun k => draftName_ne_fileName k]
  have hpath : c.draftPath (d.put (S ++ [fileName]) (.file content)) = c.draftPath d :=
    congrArg (Path.join (c.draftFolder d)) hdraft
  refine ⟨?_, hpath ▸ h.draftPath, ?_, hmono h.file, h.filePath, ?_, h.content⟩
  · rw [hdraft]
    exact hmono h.draft
  · rw [hdraft, Disk.entry?_put_other draft_ne_file]
    exact h.free
  · rw [Disk.entry?_put_self h.noFolder]
    simp

/-- A save that has succeeded can be made again, and changes nothing more. -/
theorem Savable.write_again (h : c.Savable d content R S) :
    c.write (d.put (S ++ [fileName]) (.file content))
      = (d.put (S ++ [fileName]) (.file content), .ok ()) := by
  rw [h.again.write, put_put]

end Cache

end GalleryScan
