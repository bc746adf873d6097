import GalleryScan.Proofs.Disk.Following

/-!
# What an operation on one file changes

Opening, writing and removing the file at a route change the entry of that route and no other:

> `Disk.entry? (d.put r e) S = if S = r then some e else d.entry? S`

and likewise without the entry. The operations are described for the path of a name in a folder, by
the route that it leads to.
-/

set_option autoImplicit false

namespace GalleryScan

namespace Disk

variable {d : Disk} {r S : Route}

/-! ## Entries -/

theorem lookup_replaced (r : Route) (e : Entry) (es : List (Route × Entry))
    (h : es.any (·.1 = r) = true) (S : Route) :
    (es.map fun x => if x.1 = r then (r, e) else x).lookup S
      = if S = r then some e else es.lookup S := by
  induction es with
  | nil => cases h
  | cons x es ih =>
    rw [List.map_cons, List.lookup_cons]
    by_cases hx : x.1 = r
    · rw [if_pos hx]
      dsimp only
      by_cases hS : S = r
      · simp [hS]
      · have hne : (S == x.1) = false := by simpa [hx] using hS
        rw [List.lookup_cons, hne]
        simp only [beq_false_of_ne hS, if_neg hS]
        by_cases hrest : es.any (·.1 = r) = true
        · rw [ih hrest, if_neg hS]
        · have hsame : es.map (fun x => if x.1 = r then (r, e) else x) = es := by
            refine Eq.trans (List.map_congr_left ?_) (List.map_id es)
            intro y hy
            apply if_neg
            intro hyr
            exact hrest (List.any_eq_true.mpr ⟨y, hy, by simpa using hyr⟩)
          rw [hsame]
    · have hrest : es.any (·.1 = r) = true := by simpa [hx] using h
      rw [if_neg hx, List.lookup_cons]
      by_cases hS : S = x.1
      · have hSr : ¬ S = r := by rw [hS]; exact hx
        simp [hS, hx]
      · simp only [beq_false_of_ne hS]
        exact ih hrest

theorem lookup_put (d : Disk) (r : Route) (e : Entry) (S : Route) :
    (d.put r e).entries.lookup S = if S = r then some e else d.entries.lookup S := by
  rw [put]
  dsimp only
  by_cases h : d.entries.any (·.1 = r) = true
  · rw [if_pos h, lookup_replaced r e _ h]
  · rw [if_neg h, List.lookup_append]
    by_cases hS : S = r
    · have hnone : d.entries.lookup r = none := by
        rw [List.lookup_eq_none_iff]
        intro x hx
        simp only [List.any_eq_true, decide_eq_true_eq, not_exists, not_and] at h
        simpa using fun hr => h x hx hr.symm
      rw [if_pos hS, hS, hnone]
      simp
    · rw [if_neg hS]
      have hnone : [(r, e)].lookup S = none := by
        rw [List.lookup_cons, beq_false_of_ne hS, List.lookup_nil]
      rw [hnone, Option.or_none]

theorem lookup_erase (d : Disk) (r : Route) (S : Route) :
    (d.erase r).entries.lookup S = if S = r then none else d.entries.lookup S := by
  rw [erase]
  induction d.entries with
  | nil => simp
  | cons x es ih =>
    dsimp only at ih ⊢
    by_cases hx : x.1 = r
    · rw [List.filter_cons_of_neg (by simpa using hx), ih, List.lookup_cons]
      by_cases hS : S = r
      · rw [if_pos hS, if_pos hS]
      · have hne : (S == x.1) = false := by simpa [hx] using hS
        rw [if_neg hS, if_neg hS, hne]
    · rw [List.filter_cons_of_pos (by simpa using hx), List.lookup_cons, List.lookup_cons, ih]
      by_cases hS : S = x.1
      · have hSr : ¬ S = r := by rw [hS]; exact hx
        simp [hS, hx]
      · simp only [beq_false_of_ne hS]

/-- Beside the folders around the working folder an entry is what is put there. -/
theorem entry?_put (d : Disk) (r : Route) (e : Entry) (S : Route) :
    Disk.entry? (d.put r e) S
      = if S.isPrefixOf d.here then some .folder else if S = r then some e else d.entry? S := by
  rw [Disk.entry?, lookup_put]
  show (if S.isPrefixOf d.here then _ else _) = _
  by_cases hS : S.isPrefixOf d.here = true
  · rw [if_pos hS, if_pos hS]
  · rw [if_neg hS, if_neg hS, entry?, if_neg hS]

theorem entry?_erase (d : Disk) (r : Route) (S : Route) :
    Disk.entry? (d.erase r) S
      = if S.isPrefixOf d.here then some .folder else if S = r then none else d.entry? S := by
  rw [Disk.entry?, lookup_erase]
  show (if S.isPrefixOf d.here then _ else _) = _
  by_cases hS : S.isPrefixOf d.here = true
  · rw [if_pos hS, if_pos hS]
  · rw [if_neg hS, if_neg hS, entry?, if_neg hS]

theorem not_isPrefixOf_here (h : d.entry? r ≠ some .folder) : ¬ r.isPrefixOf d.here = true := by
  intro hr
  apply h
  rw [Disk.entry?, if_pos hr]

theorem entry?_put_self (h : d.entry? r ≠ some .folder) (e : Entry) :
    Disk.entry? (d.put r e) r = some e := by
  rw [entry?_put, if_neg (not_isPrefixOf_here h), if_pos rfl]

theorem entry?_put_other (hS : S ≠ r) (e : Entry) : Disk.entry? (d.put r e) S = d.entry? S := by
  rw [entry?_put, if_neg hS]
  split
  · rename_i hhere
    rw [Disk.entry?, if_pos hhere]
  · rfl

theorem entry?_erase_self (h : d.entry? r ≠ some .folder) : Disk.entry? (d.erase r) r = none := by
  rw [entry?_erase, if_neg (not_isPrefixOf_here h), if_pos rfl]

theorem entry?_erase_other (hS : S ≠ r) : Disk.entry? (d.erase r) S = d.entry? S := by
  rw [entry?_erase, if_neg hS]
  split
  · rename_i hhere
    rw [Disk.entry?, if_pos hhere]
  · rfl

/-- Where no folder is, a file can be put or taken away, and all folders stay. -/
theorem folder_put (h : d.entry? r ≠ some .folder) (e : Entry) (hS : d.entry? S = some .folder) :
    Disk.entry? (d.put r e) S = some .folder := by
  rw [entry?_put_other _ e, hS]
  rintro rfl
  exact h hS

theorem folder_erase (h : d.entry? r ≠ some .folder) (hS : d.entry? S = some .folder) :
    Disk.entry? (d.erase r) S = some .folder := by
  rw [entry?_erase_other, hS]
  rintro rfl
  exact h hS

/-! ## All entries but one -/

/-- The second disk is the first one but for the entry of a route. -/
structure SameBut (r : Route) (d d' : Disk) : Prop where
  here : d'.here = d.here
  other : ∀ S, S ≠ r → d'.entry? S = d.entry? S

theorem SameBut.refl (r : Route) (d : Disk) : SameBut r d d := ⟨rfl, fun _ _ => rfl⟩

theorem SameBut.trans {d' d'' : Disk} (h : SameBut r d d') (h' : SameBut r d' d'') :
    SameBut r d d'' :=
  ⟨h'.here.trans h.here, fun S hS => (h'.other S hS).trans (h.other S hS)⟩

theorem sameBut_put (d : Disk) (r : Route) (e : Entry) : SameBut r d (d.put r e) :=
  ⟨rfl, fun _ hS => entry?_put_other hS e⟩

theorem sameBut_erase (d : Disk) (r : Route) : SameBut r d (d.erase r) :=
  ⟨rfl, fun _ hS => entry?_erase_other hS⟩

/-! ## The same entries -/

/-- The disks have the same entries. -/
structure Same (d d' : Disk) : Prop where
  here : d'.here = d.here
  entries : ∀ S, d'.entry? S = d.entry? S

theorem Same.follow {d' : Disk} (h : Same d d') (R : Route) (e : Entry) (ns : List Text) :
    d'.follow R e ns = d.follow R e ns := by
  induction ns generalizing R e with
  | nil => rfl
  | cons n ns ih => simp only [Disk.follow, h.entries, ih]

/-- The disks have the same files at the end of each path. -/
theorem Same.read {d' : Disk} (h : Same d d') (p : Text) : d'.read p = d.read p := by
  have hlocate : d'.locate p = d.locate p := by
    simp only [Disk.locate, h.here, h.follow]
  rw [Disk.read, Disk.read, Disk.find, Disk.find, hlocate]

/-! ## Operations on the file of a path -/

section Operations

variable {R : Route} {p n : Text} {content : Bytes}

theorem spot_of_some {e : Entry} (h : d.entry? r = some e) : d.spot r = .taken r e := by
  rw [spot, h]

theorem spot_of_none (h : d.entry? r = none) : d.spot r = .free r := by
  rw [spot, h]

theorem Leads.find (h : d.Leads p n R) (hcheck : checkPath (Path.join p n) = .ok ()) :
    d.find (Path.join p n) = .ok (d.spot (R ++ [Path.onDisk n])) := by
  rw [Disk.find, hcheck]
  dsimp only [bind, Except.bind]
  rw [h.locate]

theorem Leads.at? (h : d.Leads p n R) (hcheck : checkPath (Path.join p n) = .ok ()) :
    d.at? (Path.join p n) = d.entry? (R ++ [Path.onDisk n]) := by
  rw [Disk.at?, hcheck, h.locate, spot]
  cases d.entry? (R ++ [Path.onDisk n]) <;> rfl

theorem Leads.openFile (h : d.Leads p n R) (hcheck : checkPath (Path.join p n) = .ok ())
    (hfolder : d.entry? (R ++ [Path.onDisk n]) ≠ some .folder) :
    d.openFile (Path.join p n) = .ok (d.put (R ++ [Path.onDisk n]) (.file [])) := by
  rw [Disk.openFile, h.find hcheck]
  dsimp only [bind, Except.bind]
  cases hentry : d.entry? (R ++ [Path.onDisk n]) with
  | none => rw [spot_of_none hentry]
  | some e =>
    cases e with
    | folder => exact absurd hentry hfolder
    | file old => rw [spot_of_some hentry]

theorem find_eq_ok {s : Spot} (h : d.find p = .ok s) :
    checkPath p = .ok () ∧ d.locate p = .ok s := by
  rw [Disk.find] at h
  cases hcheck : checkPath p with
  | error fault =>
    rw [hcheck] at h
    cases h
  | ok _ =>
    rw [hcheck] at h
    cases hlocate : d.locate p with
    | error reason =>
      rw [hlocate] at h
      cases h
    | ok t =>
      rw [hlocate] at h
      cases h
      exact ⟨rfl, rfl⟩

/-- A file that can be opened is at a path that leads to no folder. -/
theorem openFile_eq_ok {d' : Disk} (hn : Path.IsName n) (h : d.openFile (Path.join p n) = .ok d') :
    checkPath (Path.join p n) = .ok () ∧ ∃ R, d.Leads p n R
      ∧ d.entry? (R ++ [Path.onDisk n]) ≠ some .folder
      ∧ d' = d.put (R ++ [Path.onDisk n]) (.file []) := by
  cases hfind : d.find (Path.join p n) with
  | error fault =>
    rw [Disk.openFile, hfind] at h
    cases h
  | ok s =>
    obtain ⟨hcheck, hlocate⟩ := find_eq_ok hfind
    obtain ⟨R, hleads, rfl⟩ := leads_of_locate hn hlocate
    have hfolder : d.entry? (R ++ [Path.onDisk n]) ≠ some .folder := by
      intro hfolder
      rw [Disk.openFile, hfind, spot_of_some hfolder] at h
      cases h
    rw [hleads.openFile hcheck hfolder] at h
    cases h
    exact ⟨hcheck, R, hleads, hfolder, rfl⟩

theorem Leads.writeFile {old : Bytes} (h : d.Leads p n R)
    (hfile : d.entry? (R ++ [Path.onDisk n]) = some (.file old)) :
    d.writeFile (Path.join p n) content = d.put (R ++ [Path.onDisk n]) (.file content) := by
  rw [Disk.writeFile, h.locate, spot_of_some hfile]

theorem Leads.read (h : d.Leads p n R) (hcheck : checkPath (Path.join p n) = .ok ())
    (hfile : d.entry? (R ++ [Path.onDisk n]) = some (.file content)) :
    d.read (Path.join p n) = .ok content := by
  rw [Disk.read, h.find hcheck, spot_of_some hfile]
  rfl

/-- A file that can be read is there. -/
theorem read_eq_ok (h : d.read p = .ok content) :
    ∃ S, checkPath p = .ok () ∧ d.locate p = .ok (.taken S (.file content)) := by
  cases hfind : d.find p with
  | error fault =>
    rw [Disk.read, hfind] at h
    cases h
  | ok s =>
    rw [Disk.read, hfind] at h
    obtain ⟨hcheck, hlocate⟩ := find_eq_ok hfind
    cases s with
    | free S => cases h
    | taken S e =>
      cases e with
      | folder => cases h
      | file old =>
        cases h
        exact ⟨S, hcheck, hlocate⟩

theorem read_eq_ok_iff : d.read p = .ok content ↔ d.at? p = some (.file content) := by
  constructor
  · intro h
    obtain ⟨S, hcheck, hlocate⟩ := read_eq_ok h
    rw [Disk.at?, hcheck, hlocate]
  · intro h
    rw [Disk.at?] at h
    split at h
    · rename_i hcheck hlocate
      cases h
      rw [Disk.read, Disk.find, hcheck, hlocate]
      rfl
    · cases h

theorem hasEntry_of_read (h : d.read p = .ok content) : d.hasEntry p = true := by
  obtain ⟨S, hcheck, hlocate⟩ := read_eq_ok h
  rw [Disk.hasEntry, Disk.at?, hcheck, hlocate]
  rfl

theorem hasFile_of_read (h : d.read p = .ok content) : d.hasFile p = true := by
  obtain ⟨S, hcheck, hlocate⟩ := read_eq_ok h
  rw [Disk.hasFile, Disk.at?, hcheck, hlocate]

theorem Leads.removeFile (h : d.Leads p n R) (hcheck : checkPath (Path.join p n) = .ok ())
    (hfile : d.entry? (R ++ [Path.onDisk n]) = some (.file content)) :
    d.removeFile (Path.join p n) = .ok (d.erase (R ++ [Path.onDisk n])) := by
  rw [Disk.removeFile, h.find hcheck, spot_of_some hfile]
  rfl

end Operations

end Disk

end GalleryScan
