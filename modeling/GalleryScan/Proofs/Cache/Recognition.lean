import GalleryScan.Proofs.Cache.Saving
import GalleryScan.Proofs.Disk.Changing
import GalleryScan.Proofs.Gallery.FitName
import Mathlib

/-!
# Which ids are recognised again

The file of a record's image goes by the id, with low lines for unfit signs and without blanks
before it. So the id can be read off the file's name just where nothing of it gave way, there is
more than points before the extension, and the disk spells the id the same:

> `Path.stem (Path.onDisk (r.target quality).fileName) = r.id.plain ↔ r.id.plain.IsStem`

That nothing else is recognised by chance is seen from the bytes: a low line takes as many as the
sign it stands for, and a blank that is gone takes some with it.
-/

set_option autoImplicit false

namespace GalleryScan

/-! ## Bytes of signs -/

namespace Path

variable {c : CodePoint}

theorem bytes_cons (c : CodePoint) (p : Text) : bytes (c :: p) = bytes [c] ++ bytes p :=
  bytes_append [c] p

theorem bytes_of_ascii (h : c.val < 0x80) : bytes [c] = [UInt8.ofNat c.val] := by
  cases c with
  | scalar c =>
    rw [bytes, List.flatMap_singleton]
    show Text.bytesOf c.toNat = _
    rw [Text.bytesOf]
    exact if_pos h
  | surrogate n =>
    exfalso
    simp only [CodePoint.val, CodePoint.firstSurrogate] at h
    omega

theorem bytes_ne_nil (c : CodePoint) : bytes [c] ≠ [] := by
  rw [bytes, List.flatMap_singleton]
  split
  · exact List.cons_ne_nil _ _
  · rw [Text.bytesOf]
    dsimp only
    split
    · exact List.cons_ne_nil _ _
    split
    · exact List.cons_ne_nil _ _
    split <;> exact List.cons_ne_nil _ _

/-- A text takes as many bytes as its end only if it is no longer. -/
theorem eq_of_suffix_of_bytes {p q : Text} (h : p <:+ q)
    (hlength : (bytes p).length = (bytes q).length) : p = q := by
  obtain ⟨w, rfl⟩ := h
  cases w with
  | nil => rfl
  | cons c w =>
    have hc := List.length_pos_iff.mpr (bytes_ne_nil c)
    rw [List.cons_append, bytes_cons, bytes_append, List.length_append, List.length_append]
      at hlength
    omega

end Path

/-- What it takes, sign by sign, to be read off the name of a file. -/
theorem Text.isStem_iff {t : Text} : t.IsStem
    ↔ (∀ c ∈ t, 32 ≤ c.val ∧ c ∉ Text.ofString "\\/*?:\x22<>|")
      ∧ (∀ c ∈ t.head?, c.isBlank = false) ∧ (∃ c ∈ t, c ≠ .scalar '.') ∧ Path.onDisk t = t := by
  have hfront : t.head?.any CodePoint.isBlank = false ↔ ∀ c ∈ t.head?, c.isBlank = false := by
    cases t with
    | nil => simp
    | cons c t => simp
  have hnamed : t.any (· ≠ .scalar '.') = true ↔ ∃ c ∈ t, c ≠ .scalar '.' := by
    rw [List.any_eq_true]
    simp only [decide_eq_true_eq]
  constructor
  · intro h
    exact ⟨fun c hc => isUnfit_eq_false_iff.mp (h.fit c hc), hfront.mp h.front, hnamed.mp h.named,
      h.spelled⟩
  · rintro ⟨hfit, hhead, hsome, hspelled⟩
    exact ⟨fun c hc => isUnfit_eq_false_iff.mpr (hfit c hc), hfront.mpr hhead, hnamed.mpr hsome,
      hspelled⟩

namespace Record

/-! ## Signs that give way -/

/-- The unfit signs are some of ASCII, and the low line is none of them. -/
theorem val_of_isUnfit {c : CodePoint} (h : c.isUnfit = true) : c.val < 0x80 ∧ c.val ≠ 0x5F := by
  rw [CodePoint.isUnfit, Bool.or_eq_true, decide_eq_true_eq, List.contains_iff_mem] at h
  rcases h with h | h
  · omega
  · have hall : ∀ c ∈ Text.ofString "\\/*?:\x22<>|", c.val < 0x80 ∧ c.val ≠ 0x5F := by decide
    exact hall c h

theorem length_bytes_fitSign (c : CodePoint) :
    (Path.bytes [fitSign c]).length = (Path.bytes [c]).length := by
  rw [fitSign]
  split
  · rename_i h
    rw [Path.bytes_of_ascii (val_of_isUnfit h).1]
    rfl
  · rfl

theorem isUnfit_of_bytes_fitSign {c : CodePoint} (h : Path.bytes [fitSign c] = Path.bytes [c]) :
    c.isUnfit = false := by
  by_contra hunfit
  rw [Bool.not_eq_false] at hunfit
  obtain ⟨hascii, hline⟩ := val_of_isUnfit hunfit
  rw [fitSign, if_pos hunfit, Path.bytes_of_ascii hascii] at h
  have hbyte : (UInt8.ofNat c.val).toNat = 0x5F :=
    congrArg UInt8.toNat (List.head_eq_of_cons_eq h).symm
  rw [Bytes.toNat_ofNat_of_lt (by omega)] at hbyte
  exact hline hbyte

theorem length_bytes_map_fitSign (t : Text) :
    (Path.bytes (t.map fitSign)).length = (Path.bytes t).length := by
  induction t with
  | nil => rfl
  | cons c t ih =>
    rw [List.map_cons, Path.bytes_cons, Path.bytes_cons c, List.length_append, List.length_append,
      length_bytes_fitSign, ih]

/-- Where the bytes are the same, no sign has given way. -/
theorem isUnfit_of_bytes_map_fitSign {t : Text}
    (h : Path.bytes (t.map fitSign) = Path.bytes t) : ∀ c ∈ t, c.isUnfit = false := by
  induction t with
  | nil => exact List.forall_mem_nil _
  | cons c t ih =>
    rw [List.map_cons, Path.bytes_cons, Path.bytes_cons c] at h
    obtain ⟨hc, ht⟩ := List.append_inj h (length_bytes_fitSign c)
    exact List.forall_mem_cons.mpr ⟨isUnfit_of_bytes_fitSign hc, ih ht⟩

/-! ## Reading an id off a name -/

/-- Where the disk spells what was made of the text as the text itself, the text was fit. -/
theorem isStem_of_onDisk {t : Text} (hnamed : t.any (· ≠ .scalar '.') = true)
    (h : Path.onDisk ((t.map fitSign).dropWhile CodePoint.isBlank) = t) : t.IsStem := by
  have hbytes : Path.bytes ((t.map fitSign).dropWhile CodePoint.isBlank) = Path.bytes t := by
    rw [← Path.bytes_onDisk, h]
  have hwhole : (t.map fitSign).dropWhile CodePoint.isBlank = t.map fitSign := by
    refine Path.eq_of_suffix_of_bytes (List.dropWhile_suffix _) ?_
    rw [hbytes, length_bytes_map_fitSign]
  have hfit : ∀ c ∈ t, c.isUnfit = false := by
    rw [hwhole] at hbytes
    exact isUnfit_of_bytes_map_fitSign hbytes
  have hfront : ∀ c ∈ t.head?, c.isBlank = false := by
    rw [map_fitSign_of_fit hfit] at hwhole
    intro c hc
    rw [← hwhole] at hc
    exact Text.out_of_head_dropWhile hc
  refine ⟨hfit, ?_, hnamed, ?_⟩
  · cases t with
    | nil => rfl
    | cons c t => exact hfront c rfl
  · rw [← h, Path.onDisk_onDisk]

/-- A text of points and letters stays as it is. -/
theorem onDisk_of_plain {t : Text}
    (h : ∀ c ∈ t, c.isUnfit = false ∧ c.isBlank = false ∧ c.isScalar = true) :
    Path.onDisk ((t.map fitSign).dropWhile CodePoint.isBlank) = t := by
  rw [map_fitSign_of_fit fun c hc => (h c hc).1,
    Text.dropWhile_of_head fun c hc => (h c (List.mem_of_mem_head? hc)).2.1]
  exact Path.onDisk_of_isEncodable (List.all_eq_true.mpr fun c hc => (h c hc).2.2)

theorem plain_points_append {p e : Text} (hp : ∀ c ∈ p, c = .scalar '.') (he : e ∈ extensions) :
    ∀ c ∈ p ++ e, c.isUnfit = false ∧ c.isBlank = false ∧ c.isScalar = true := by
  have hletters : ∀ e ∈ extensions, ∀ c ∈ e,
      c.isUnfit = false ∧ c.isBlank = false ∧ c.isScalar = true := by decide
  intro c hc
  rcases List.mem_append.mp hc with hc | hc
  · rw [hp c hc]
    decide
  · exact hletters e he c hc

/-- The file goes by the record's id just where the id can be read off its name. -/
theorem stem_fileName_iff (r : Record) (quality : Text) :
    Path.stem (Path.onDisk (r.target quality).fileName) = r.id.plain ↔ r.id.plain.IsStem := by
  refine ⟨fun h => ?_, fun h => r.stem_fileName h quality⟩
  have hext := extension_mem (sourceUrl quality r.url)
  obtain ⟨e, he, hencodable, hnone⟩ := exists_of_extension hext
  rw [fileName_eq, he, Path.onDisk_append_point hencodable, Path.stem_append hnone] at h
  split at h
  · rename_i hnamed
    rw [h] at hnamed
    exact isStem_of_onDisk hnamed h
  · -- With only points before it, the extension would have to be part of the id.
    rename_i hpoints
    have hp : ∀ c ∈ Path.onDisk ((r.id.plain.map fitSign).dropWhile CodePoint.isBlank),
        c = .scalar '.' := by simpa using hpoints
    have hplain := onDisk_of_plain (plain_points_append hp (he ▸ hext))
    rw [h] at hplain
    rw [hplain] at h
    exact absurd (List.append_right_eq_self.mp h) (List.cons_ne_nil _ _)

end Record

/-! ## A folder with one file -/

namespace Disk

variable {d : Disk} {folder name n : Text} {content : Bytes}

/-- A file is among the names of its folder. -/
theorem mem_namesIn_of_entry {R : Route} (h : d.entry? (R ++ [n]) = some (.file content)) :
    n ∈ d.namesIn R := by
  rw [Disk.entry?] at h
  split at h
  · cases h
  · obtain ⟨before, after, hsplit, _⟩ := List.lookup_eq_some_iff.mp h
    refine Cache.mem_namesIn_iff.mpr ⟨.file content, ?_⟩
    rw [hsplit]
    exact List.mem_append_right _ (List.mem_cons_self ..)

/-- The only entry of a folder is the file that is found in it. -/
theorem onDisk_of_list (hname : Path.IsName name) (hlist : d.list folder = .ok [n])
    (hfile : d.at? (Path.join folder name) = some (.file content)) : Path.onDisk name = n := by
  obtain ⟨S, hcheck, hlocate⟩ := read_eq_ok (read_eq_ok_iff.mpr hfile)
  obtain ⟨R, hleads, hspot⟩ := leads_of_locate hname hlocate
  have hentry : d.entry? (R ++ [Path.onDisk name]) = some (.file content) := by
    rw [spot] at hspot
    split at hspot
    · rename_i e hsome
      cases hspot
      exact hsome
    · cases hspot
  have hfolder : folder ≠ [] := by
    rintro rfl
    cases hlist
  rw [hleads.list hcheck hfolder, Except.ok.injEq] at hlist
  have hmem := mem_namesIn_of_entry hentry
  rw [hlist, List.mem_singleton] at hmem
  exact hmem

end Disk

/-- In a folder whose only entry is the file of a record's image, the id of the record is found
again just if no sign of it gives way, no blank is before it, it is more than points, and the disk
spells it as it is; an id that has a form in bytes is always spelled so. -/
theorem Cache.hasFile_iff (c : Cache) (d : Disk) (r : Record) (quality n : Text) (content : Bytes)
    (hlist : d.list c.folder = .ok [n])
    (hfile : d.at? (Path.join c.folder (r.target quality).fileName) = some (.file content)) :
    let id := r.id.plain
    ∃ c', c.indexFiles d = .ok c'
      ∧ (c'.hasFile r.id = true ↔ (∀ p ∈ id, 32 ≤ p.val ∧ p ∉ Text.ofString "\\/*?:\x22<>|")
        ∧ (∀ p ∈ id.head?, p.isBlank = false) ∧ (∃ p ∈ id, p ≠ .scalar '.')
        ∧ Path.onDisk id = id)
      ∧ (id.isEncodable = true → Path.onDisk id = id) := by
  intro id
  have hn := Disk.onDisk_of_list (r.isName_fileName quality) hlist hfile
  refine ⟨{ c with files := [Path.stem n] }, by rw [indexFiles, hlist]; rfl, ?_,
    Path.onDisk_of_isEncodable⟩
  rw [hasFile, List.contains_iff_mem, List.mem_singleton, ← hn, eq_comm, r.stem_fileName_iff]
  exact Text.isStem_iff

namespace OneImage

def record : Record := ⟨.int 7, "h/width=450/7.png", none, []⟩

def disk : Disk := ⟨[], [(["u"], .folder), (["u", "7.png"], .file [])]⟩

/-- An image that was downloaded for a number is found again. -/
theorem hasFile_iff_number : ∃ c', Cache.indexFiles ⟨"u", [], []⟩ disk = .ok c'
    ∧ c'.hasFile record.id = true := by
  have hlist : disk.list "u" = .ok ["7.png"] := by cbv
  have hfile : disk.at? (Path.join "u" (record.target "HD").fileName) = some (.file []) := by
    decide +kernel
  obtain ⟨c', hindex, hiff, hspelled⟩ := Cache.hasFile_iff ⟨"u", [], []⟩ disk record "HD" _ _ hlist
    hfile
  exact ⟨c', hindex, hiff.mpr ⟨by decide, by decide, by decide, hspelled (by decide)⟩⟩

end OneImage

namespace SplitCharacter

/-- The id is two halves of surrogate pairs, which stand for the two bytes of one character. -/
def record : Record := ⟨.text [.surrogate 0x4C3, .surrogate 0x4A9], "h/x.jpeg", none, []⟩

def disk : Disk := ⟨[], [(["u"], .folder), (["u", "\u00E9.jpeg"], .file [])]⟩

/-- Not every id that needs no change is found again. -/
theorem not_all_found : ¬ ∀ (c : Cache) (d : Disk) (r : Record) (quality n : Text)
    (content : Bytes), d.list c.folder = .ok [n] →
      d.at? (Path.join c.folder (r.target quality).fileName) = some (.file content) →
      ∃ c', c.indexFiles d = .ok c' ∧ (c'.hasFile r.id = true
        ↔ (∀ p ∈ r.id.plain, 32 ≤ p.val ∧ p ∉ Text.ofString "\\/*?:\x22<>|")
          ∧ (∀ p ∈ r.id.plain.head?, p.isBlank = false)
          ∧ (∃ p ∈ r.id.plain, p ≠ .scalar '.')) := by
  intro h
  have hlist : disk.list "u" = .ok ["\u00E9.jpeg"] := by cbv
  have hfile : disk.at? (Path.join "u" (record.target "SD").fileName) = some (.file []) := by
    decide +kernel
  obtain ⟨c', hindex, hiff⟩ := h ⟨"u", [], []⟩ disk record "SD" _ _ hlist hfile
  have hfound := hiff.mpr ⟨by decide, by decide, by decide⟩
  obtain rfl : ⟨"u", [], ["\u00E9"]⟩ = c' := by
    have hfiles : Cache.indexFiles ⟨"u", [], []⟩ disk = .ok ⟨"u", [], ["\u00E9"]⟩ := by cbv
    exact Except.ok.inj (hfiles.symm.trans hindex)
  revert hfound
  decide

end SplitCharacter

end GalleryScan
