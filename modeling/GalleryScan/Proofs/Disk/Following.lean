import GalleryScan.Disk.Tree
import GalleryScan.Proofs.Text.Pieces

/-!
# Where paths lead, and what changes it

A file is named by the path of a folder and a name in it. Such a path leads to that name in the
folder, and what is there is the entry of one route:

> `d.Leads folder name R → d.locate (Path.join folder name) = .ok (d.spot (R ++ [name]))`

Putting a file where no folder is, and taking one away, changes the entry of its own route and no
other; so all folders stay, and every path leads where it led.
-/

set_option autoImplicit false

namespace GalleryScan

/-! ## Paths put together -/

namespace Path

/-- A name that an entry can have: no slash, and none of the names with a meaning of their own. -/
structure IsName (n : Text) : Prop where
  slash : slash ∉ n
  some : n ≠ []
  here : n ≠ "."
  above : n ≠ ".."

/-- The names that lead to the folder at a path, with no empty one where the path ends. -/
def folderNames (p : Text) : List Text :=
  if p = [] then [] else if p.getLast? = some slash then (names p).dropLast else names p

variable {p n : Text}

theorem isAbsolute_of_isName (h : IsName n) : isAbsolute n = false := by
  cases n with
  | nil => rfl
  | cons c n =>
    have hc : c ≠ slash := by
      rintro rfl
      exact h.slash (List.mem_cons_self ..)
    simp [isAbsolute, hc]

theorem isAbsolute_join (h : IsName n) : isAbsolute (join p n) = isAbsolute p := by
  rw [join, isAbsolute_of_isName h]
  cases p with
  | nil => exact isAbsolute_of_isName h
  | cons c p =>
    rw [if_neg (by decide)]
    split <;> rfl

/-- The names of a path put together: those of the folder, and the last one. -/
theorem names_join (h : IsName n) : names (join p n) = folderNames p ++ [n] := by
  rw [join, isAbsolute_of_isName h, if_neg (by decide), folderNames]
  by_cases hp : p = []
  · rw [if_pos (.inl hp), if_pos hp, hp]
    exact Text.splitOn_of_notMem h.slash
  rw [if_neg hp]
  by_cases hend : p.getLast? = some slash
  · obtain ⟨q, rfl⟩ := List.getLast?_eq_some_iff.mp hend
    rw [if_pos (.inr hend), if_pos hend, List.append_assoc, names, List.singleton_append,
      Text.splitOn_append_separator, Text.splitOn_of_notMem h.slash, names,
      Text.splitOn_append_separator]
    simp [Text.splitOn]
  · rw [if_neg (by simp [hp, hend]), if_neg hend, names, Text.splitOn_append_separator,
      Text.splitOn_of_notMem h.slash]
    rfl

end Path

namespace Disk

/-! ## Following names -/

variable {d d' : Disk} {R : Route}

/-- What is at the end of a route. -/
def spot (d : Disk) (R : Route) : Spot :=
  match d.entry? R with
  | some e => .taken R e
  | none => .free R

/-- One name more: it is looked up in the folder that the names before it lead to. -/
def enter (d : Disk) (n : Text) : Except Refusal Spot → Except Refusal Spot
  | .ok (.taken R .folder) =>
    if nameLimit < (Path.bytes n).length then .error .tooLong
    else .ok (d.spot (R ++ [Path.onDisk n]))
  | .ok (.taken _ (.file _)) => .error .noFolder
  | .ok (.free _) => .error .missing
  | .error reason => .error reason

/-- By induction on the names before it. -/
theorem follow_concat {n : Text} (h : Path.IsName n) (ns : List Text) (R : Route) (e : Entry) :
    d.follow R e (ns ++ [n]) = d.enter n (d.follow R e ns) := by
  have hempty : n ≠ "" := h.some
  induction ns generalizing R e with
  | nil =>
    cases e with
    | file content => rfl
    | folder =>
      rw [List.nil_append, follow, follow, if_neg (by simp), if_neg (by simp [hempty, h.here]),
        if_neg h.above, enter]
      split
      · rfl
      · dsimp only [spot]
        cases d.entry? (R ++ [Path.onDisk n]) <;> rfl
  | cons m ns ih =>
    rw [List.cons_append, follow, follow]
    by_cases he : e ≠ .folder
    · rw [if_pos he, if_pos he]
      rfl
    rw [if_neg he, if_neg he]
    by_cases hm : m = "" ∨ m = "."
    · rw [if_pos hm, if_pos hm, ih]
    rw [if_neg hm, if_neg hm]
    by_cases hup : m = ".."
    · rw [if_pos hup, if_pos hup, ih]
    rw [if_neg hup, if_neg hup]
    by_cases hlong : nameLimit < (Path.bytes m).length
    · rw [if_pos hlong, if_pos hlong]
      rfl
    rw [if_neg hlong, if_neg hlong]
    dsimp only
    cases d.entry? (R ++ [Path.onDisk m]) with
    | some e' => exact ih _ _
    | none =>
      dsimp only
      rw [if_neg (by simp [hempty])]
      split <;> rfl

/-- One name leads from a folder to an entry: to the folder itself, to the one above it, or to what
goes by that name in it. -/
inductive Passes (d : Disk) (R : Route) (n : Text) : Route → Entry → Prop where
  | stay (special : n = "" ∨ n = ".") : Passes d R n R .folder
  | up (ordinary : ¬ (n = "" ∨ n = ".")) (above : n = "..") : Passes d R n R.dropLast .folder
  | down (e : Entry) (ordinary : ¬ (n = "" ∨ n = ".")) (below : n ≠ "..")
      (fits : ¬ nameLimit < (Path.bytes n).length)
      (there : d.entry? (R ++ [Path.onDisk n]) = some e) :
      Passes d R n (R ++ [Path.onDisk n]) e

theorem follow_of_passes {n : Text} {T : Route} {t : Entry} (h : d.Passes R n T t)
    (ns : List Text) : d.follow R .folder (n :: ns) = d.follow T t ns := by
  rw [follow, if_neg (by simp)]
  cases h with
  | stay special => rw [if_pos special]
  | up ordinary above => rw [if_neg ordinary, if_pos above]
  | down e ordinary below fits there =>
    rw [if_neg ordinary, if_neg below, if_neg fits]
    dsimp only
    rw [there]

/-- Names that lead to an entry have led from a folder to each next one. -/
theorem passes_of_follow {n : Text} {ns : List Text} {e e' : Entry} {S : Route}
    (h : d.follow R e (n :: ns) = .ok (.taken S e')) :
    e = .folder ∧ ∃ T t, d.Passes R n T t ∧ d.follow T t ns = .ok (.taken S e') := by
  rw [follow] at h
  split at h
  · cases h
  rename_i he
  obtain rfl := Decidable.not_not.mp he
  refine ⟨rfl, ?_⟩
  split at h
  · rename_i special
    exact ⟨R, .folder, .stay special, h⟩
  rename_i ordinary
  split at h
  · rename_i above
    exact ⟨R.dropLast, .folder, .up ordinary above, h⟩
  rename_i below
  split at h
  · cases h
  rename_i fits
  dsimp only at h
  cases hentry : d.entry? (R ++ [Path.onDisk n]) with
  | none =>
    rw [hentry] at h
    dsimp only at h
    split at h <;> cases h
  | some e =>
    rw [hentry] at h
    exact ⟨_, e, .down e ordinary below fits hentry, h⟩

/-- Only from a folder do names lead to a folder. -/
theorem folder_of_follow {ns : List Text} {e : Entry} {S : Route}
    (h : d.follow R e ns = .ok (.taken S .folder)) : e = .folder := by
  cases ns with
  | nil =>
    cases h
    rfl
  | cons n ns => exact (passes_of_follow h).1

theorem Passes.mono (hfolders : ∀ S, d.entry? S = some .folder → d'.entry? S = some .folder)
    {n : Text} {T : Route} (h : d.Passes R n T .folder) : d'.Passes R n T .folder := by
  cases h with
  | stay special => exact .stay special
  | up ordinary above => exact .up ordinary above
  | down _ ordinary below fits there => exact .down _ ordinary below fits (hfolders _ there)

/-- Through folders that are there on another disk as well, names lead to the same folder. -/
theorem follow_mono (hfolders : ∀ S, d.entry? S = some .folder → d'.entry? S = some .folder)
    {ns : List Text} {e : Entry} {S : Route} (h : d.follow R e ns = .ok (.taken S .folder)) :
    d'.follow R e ns = .ok (.taken S .folder) := by
  induction ns generalizing R e with
  | nil => exact h
  | cons n ns ih =>
    obtain ⟨rfl, T, t, hpass, hrest⟩ := passes_of_follow h
    obtain rfl := folder_of_follow hrest
    rw [follow_of_passes (hpass.mono hfolders)]
    exact ih hrest

/-! ## The path of a name in a folder -/

/-- The folder from which the names of a path are followed. -/
def base (d : Disk) (p : Text) : Route := if Path.isAbsolute p then [] else d.here

/-- The path of a name in a folder leads to that name in the folder at the end of the route. -/
structure Leads (d : Disk) (p n : Text) (R : Route) : Prop where
  name : Path.IsName n
  short : isTooLong (Path.join p n) = false
  fits : ¬ nameLimit < (Path.bytes n).length
  folder : d.follow (d.base p) .folder (Path.folderNames p) = .ok (.taken R .folder)

theorem join_ne_nil {p n : Text} (h : Path.IsName n) : Path.join p n ≠ [] := by
  rw [Path.join, Path.isAbsolute_of_isName h, if_neg (by decide)]
  split
  · intro hnil
    exact h.some (List.append_eq_nil_iff.mp hnil).2
  · simp

theorem locate_join {p n : Text} (h : Path.IsName n)
    (hshort : isTooLong (Path.join p n) = false) : d.locate (Path.join p n)
      = d.enter n (d.follow (d.base p) .folder (Path.folderNames p)) := by
  rw [locate, if_neg (join_ne_nil h), hshort, if_neg (by decide), Path.isAbsolute_join h,
    Path.names_join h, ← follow_concat h, base]
  split <;> rfl

theorem Leads.locate {p n : Text} (h : d.Leads p n R) :
    d.locate (Path.join p n) = .ok (d.spot (R ++ [Path.onDisk n])) := by
  rw [locate_join h.name h.short, h.folder, enter, if_neg h.fits]

/-- A path that leads somewhere leads to a name in a folder. -/
theorem leads_of_locate {p n : Text} {s : Spot} (hn : Path.IsName n)
    (h : d.locate (Path.join p n) = .ok s) :
    ∃ R, d.Leads p n R ∧ s = d.spot (R ++ [Path.onDisk n]) := by
  have hshort : isTooLong (Path.join p n) = false := by
    cases hlong : isTooLong (Path.join p n) with
    | false => rfl
    | true =>
      rw [locate, if_neg (join_ne_nil hn), hlong, if_pos rfl] at h
      cases h
  rw [locate_join hn hshort] at h
  cases hfollow : d.follow (d.base p) .folder (Path.folderNames p) with
  | error reason =>
    rw [hfollow] at h
    cases h
  | ok t =>
    rw [hfollow] at h
    cases t with
    | free S => cases h
    | taken S e =>
      cases e with
      | file content => cases h
      | folder =>
        rw [enter] at h
        split at h
        · cases h
        · rename_i hfits
          cases h
          exact ⟨S, ⟨hn, hshort, hfits, hfollow⟩, rfl⟩

theorem Leads.mono {p n : Text} (h : d.Leads p n R) (hhere : d'.here = d.here)
    (hfolders : ∀ S, d.entry? S = some .folder → d'.entry? S = some .folder) :
    d'.Leads p n R := by
  refine ⟨h.name, h.short, h.fits, ?_⟩
  have hbase : d'.base p = d.base p := by rw [base, base, hhere]
  rw [hbase]
  exact follow_mono hfolders h.folder

/-! ## The folder around a name -/

theorem follow_append {ns ms : List Text} {e e' : Entry} {R S : Route}
    (h : d.follow R e ns = .ok (.taken S e')) : d.follow R e (ns ++ ms) = d.follow S e' ms := by
  induction ns generalizing R e with
  | nil =>
    cases h
    rfl
  | cons n ns ih =>
    obtain ⟨rfl, T, t, hpass, hrest⟩ := passes_of_follow h
    rw [List.cons_append, follow_of_passes hpass]
    exact ih hrest

theorem exists_join (p : Text) {n : Text} (h : Path.IsName n) : ∃ t, Path.join p n = p ++ t := by
  rw [Path.join, Path.isAbsolute_of_isName h, if_neg (by decide)]
  split
  · exact ⟨n, rfl⟩
  · exact ⟨Path.slash :: n, rfl⟩

theorem encodeFault?_eq_none_iff {p : Text} {i : Nat} : Path.encodeFault? i p = none
    ↔ ∀ c ∈ p, c.isScalar = true ∨ (Path.byte? c).isSome = true := by
  induction p generalizing i with
  | nil => simp [Path.encodeFault?]
  | cons c p ih =>
    rw [Path.encodeFault?, List.forall_mem_cons]
    split
    · rename_i hc
      rw [Bool.or_eq_true] at hc
      rw [ih, and_iff_right hc]
    · rename_i hc
      rw [Bool.or_eq_true] at hc
      simp [hc]

theorem checkPath_eq_ok_iff {p : Text} : checkPath p = .ok () ↔
    (∀ c ∈ p, c.isScalar = true ∨ (Path.byte? c).isSome = true) ∧ CodePoint.scalar '\x00' ∉ p := by
  rw [← encodeFault?_eq_none_iff (i := 0), checkPath]
  cases Path.encodeFault? 0 p with
  | some fault => simp
  | none =>
    dsimp only
    split
    · rename_i hnull
      simp [List.contains_iff_mem.mp hnull]
    · rename_i hnull
      simpa using fun h => hnull (List.contains_iff_mem.mpr h)

theorem checkPath_of_append {p t : Text} (h : checkPath (p ++ t) = .ok ()) :
    checkPath p = .ok () := by
  rw [checkPath_eq_ok_iff] at h ⊢
  obtain ⟨hchars, hnull⟩ := h
  constructor
  · intro c hc
    exact hchars c (List.mem_append_left _ hc)
  · intro hc
    exact hnull (List.mem_append_left _ hc)

theorem checkPath_of_join {p n : Text} (hn : Path.IsName n)
    (h : checkPath (Path.join p n) = .ok ()) : checkPath p = .ok () := by
  obtain ⟨t, ht⟩ := exists_join p hn
  exact checkPath_of_append (ht ▸ h)

theorem Leads.short_folder {p n : Text} {R : Route} (h : d.Leads p n R) :
    isTooLong p = false := by
  obtain ⟨t, ht⟩ := exists_join p h.name
  have hlong := h.short
  rw [isTooLong, decide_eq_false_iff_not] at hlong ⊢
  rw [ht, Path.bytes, List.flatMap_append, List.length_append] at hlong
  rw [Path.bytes]
  omega

theorem Leads.follow_names {p n : Text} {R : Route} (h : d.Leads p n R) (hp : p ≠ []) :
    d.follow (d.base p) .folder (Path.names p) = .ok (.taken R .folder) := by
  have hfolder := h.folder
  rw [Path.folderNames, if_neg hp] at hfolder
  split at hfolder
  · -- The path ends in a slash, behind which there is an empty name.
    rename_i hend
    obtain ⟨q, rfl⟩ := List.getLast?_eq_some_iff.mp hend
    have hnames : Path.names (q ++ [Path.slash]) = Path.names q ++ [[]] :=
      Text.splitOn_append_separator Path.slash q []
    rw [hnames, List.dropLast_concat] at hfolder
    rw [hnames, follow_append hfolder]
    rfl
  · exact hfolder

theorem locate_of_short {p : Text} (hp : p ≠ []) (hshort : isTooLong p = false) :
    d.locate p = d.follow (d.base p) .folder (Path.names p) := by
  rw [Disk.locate, if_neg hp, hshort, if_neg (by decide), base]
  split <;> rfl

theorem list_of_locate {p : Text} {R : Route} (hcheck : checkPath p = .ok ())
    (h : d.locate p = .ok (.taken R .folder)) : d.list p = .ok (d.namesIn R) := by
  rw [Disk.list, find, hcheck]
  dsimp only [bind, Except.bind]
  rw [h]

/-- The folder of a path that leads somewhere can be listed. -/
theorem Leads.list {p n : Text} {R : Route} (h : d.Leads p n R)
    (hcheck : checkPath (Path.join p n) = .ok ()) (hp : p ≠ []) :
    d.list p = .ok (d.namesIn R) := by
  refine list_of_locate (checkPath_of_join h.name hcheck) ?_
  rw [locate_of_short hp h.short_folder, h.follow_names hp]

end Disk

end GalleryScan
