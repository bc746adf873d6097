import GalleryScan.Gallery.Target
import GalleryScan.Proofs.Disk.Following
import GalleryScan.Proofs.Disk.Spelling

/-!
# Names that are fit

A name that was made fit is one that an entry can have, and no null byte is in it, whatever it was
made from. So the file of a record's image is always one in the folder of the images, and it goes by
the extension of an image. If the id needs no change, the name gives it back:

> `Path.stem (Path.onDisk (r.target quality).fileName) = r.id.plain`
-/

set_option autoImplicit false

namespace GalleryScan

namespace Text

/-- No sign of a name that was made fit is unfit. -/
theorem isUnfit_of_mem_fitName {default name : Text} {c : CodePoint}
    (hdefault : ∀ c ∈ default, c.isUnfit = false) (h : c ∈ fitName default name) :
    c.isUnfit = false := by
  unfold fitName at h
  dsimp only at h
  split at h
  · exact hdefault c h
  · obtain ⟨d, _, rfl⟩ := List.mem_map.mp (mem_of_mem_trim h)
    split
    · rfl
    · rename_i hd
      exact Bool.eq_false_iff.mpr hd

theorem isName_fitName {default : Text} (hfit : ∀ c ∈ default, c.isUnfit = false)
    (h : Path.IsName default) (name : Text) : Path.IsName (fitName default name) := by
  have hslash : Path.slash ∉ fitName default name := by
    intro hmem
    have := isUnfit_of_mem_fitName hfit hmem
    revert this
    decide
  unfold fitName at hslash ⊢
  dsimp only at hslash ⊢
  split
  · exact h
  · rename_i hname
    rw [if_neg hname] at hslash
    rw [not_or, not_or] at hname
    exact ⟨hslash, hname.1, hname.2.1, hname.2.2⟩

end Text

namespace Record

/-- The default name of a file with one of the extensions. -/
theorem fit_default (url : Text) : (∀ c ∈ Text.ofString "image" ++ extensionOf url,
    c.isUnfit = false) ∧ Path.IsName (Text.ofString "image" ++ extensionOf url) := by
  unfold extensionOf
  split
  · exact ⟨by decide, by decide, by decide, by decide, by decide⟩
  split
  · exact ⟨by decide, by decide, by decide, by decide, by decide⟩
  · exact ⟨by decide, by decide, by decide, by decide, by decide⟩

theorem isName_fileName (quality : Text) (r : Record) : Path.IsName (r.target quality).fileName :=
  Text.isName_fitName (fit_default _).1 (fit_default _).2 _

theorem null_notMem_fileName (quality : Text) (r : Record) :
    CodePoint.scalar '\x00' ∉ (r.target quality).fileName := by
  intro hmem
  have := Text.isUnfit_of_mem_fitName (fit_default _).1 hmem
  revert this
  decide

/-- What the file of an image can end in. -/
def extensions : List Text := [".png", ".webp", ".jpeg"]

theorem extension_mem (url : Text) : extensionOf url ∈ extensions := by
  unfold extensionOf
  split
  · decide
  split <;> decide

/-- An extension is a point and letters. -/
theorem exists_of_extension {e : Text} (he : e ∈ extensions) :
    ∃ e' : Text, e = .scalar '.' :: e' ∧ e'.isEncodable = true ∧ CodePoint.scalar '.' ∉ e' := by
  simp only [extensions, List.mem_cons, List.not_mem_nil, or_false] at he
  rcases he with rfl | rfl | rfl
  · exact ⟨"png", rfl, by decide, by decide⟩
  · exact ⟨"webp", rfl, by decide, by decide⟩
  · exact ⟨"jpeg", rfl, by decide, by decide⟩

/-- A sign of an id as it stands in the name of a file. -/
def fitSign (c : CodePoint) : CodePoint := if c.isUnfit then .scalar '_' else c

/-- Where no sign is unfit, none gives way. -/
theorem map_fitSign_of_fit {t : Text} (h : ∀ c ∈ t, c.isUnfit = false) : t.map fitSign = t := by
  refine (List.map_congr_left fun c hc => ?_).trans (List.map_id _)
  rw [fitSign, h c hc, if_neg Bool.false_ne_true]
  rfl

theorem map_fitSign_extension : ∀ e ∈ extensions, e.map fitSign = e := by decide

theorem four_le_extension : ∀ e ∈ extensions, 4 ≤ e.length := by decide

/-- No extension has a blank. -/
theorem strip_append_extension {e : Text} (he : e ∈ extensions) (t : Text) :
    Text.strip (t ++ e) = t.dropWhile CodePoint.isBlank ++ e := by
  have hword : ∀ e ∈ extensions, e ≠ [] ∧ ∀ c ∈ e, c.isBlank = false := by decide
  exact Text.strip_append_word (hword e he).1 (hword e he).2 t

/-- The file goes by the id, with a low line for each unfit sign and without blanks before it, and
by the extension. -/
theorem fileName_eq (quality : Text) (r : Record) : (r.target quality).fileName
    = (r.id.plain.map fitSign).dropWhile CodePoint.isBlank
      ++ extensionOf (sourceUrl quality r.url) := by
  have hext := extension_mem (sourceUrl quality r.url)
  show Text.fitName _ _ = _
  generalize extensionOf (sourceUrl quality r.url) = e at hext
  have hfit : Text.strip ((r.id.plain ++ e).map fitSign)
      = (r.id.plain.map fitSign).dropWhile CodePoint.isBlank ++ e := by
    rw [List.map_append, map_fitSign_extension e hext, strip_append_extension hext]
  have hlong : ∀ u : Text, ¬ (u ++ e = "" ∨ u ++ e = "." ∨ u ++ e = "..") := by
    intro u hshort
    have hle : (u ++ e).length ≤ 2 := by
      rcases hshort with h | h | h <;> rw [h] <;> decide
    have := four_le_extension e hext
    rw [List.length_append] at hle
    omega
  rw [Text.fitName, show (r.id.plain ++ e).map (fun c => if c.isUnfit then .scalar '_' else c)
    = (r.id.plain ++ e).map fitSign from rfl, hfit]
  exact if_neg (hlong _)

/-- The name has a form in bytes where the id has one. -/
theorem isEncodable_fileName {r : Record} (h : r.id.plain.isEncodable = true) (quality : Text) :
    (r.target quality).fileName.isEncodable = true := by
  have hext : ∀ e ∈ extensions, e.all CodePoint.isScalar = true := by decide
  rw [Text.isEncodable, List.all_eq_true] at h ⊢
  intro c hc
  rw [fileName_eq] at hc
  rcases List.mem_append.mp hc with hc | hc
  · obtain ⟨b, hb, rfl⟩ := List.mem_map.mp ((List.dropWhile_suffix _).mem hc)
    rw [fitSign]
    split
    · rfl
    · exact h b hb
  · exact List.all_eq_true.mp (hext _ (extension_mem _)) c hc

end Record

/-! ## The text before the extension -/

/-- The extension begins at the last point, unless there are but points before it. -/
theorem Path.stem_append {e : Text} (he : CodePoint.scalar '.' ∉ e) (t : Text) :
    stem (t ++ .scalar '.' :: e)
      = if t.any (· ≠ .scalar '.') = true then t else t ++ .scalar '.' :: e := by
  have htail : (t ++ .scalar '.' :: e).reverse.takeWhile (· ≠ .scalar '.') = e.reverse := by
    have hall : ∀ c ∈ e.reverse, decide (c ≠ .scalar '.') = true := by
      intro c hc
      rw [decide_eq_true_eq]
      rintro rfl
      exact he (List.mem_reverse.mp hc)
    rw [List.reverse_append, List.reverse_cons, List.append_assoc,
      List.takeWhile_append_of_pos hall, List.singleton_append,
      List.takeWhile_cons_of_neg (by decide), List.append_nil]
  have hlength : (t ++ .scalar '.' :: e).length = t.length + e.length + 1 := by
    rw [List.length_append, List.length_cons]
    omega
  have hhead : (t ++ .scalar '.' :: e).take (t.length + e.length + 1 - e.length - 1) = t := by
    rw [show t.length + e.length + 1 - e.length - 1 = t.length by omega]
    exact List.take_left
  have hshort : e.length < t.length + e.length + 1 := by omega
  rw [stem, htail, List.length_reverse, hlength, hhead]
  simp only [hshort, true_and]

/-- A text that can stand before the extension in the name of a file and be read back from there:
no sign has to give way, there is more than points, and the disk spells it the same. -/
structure Text.IsStem (t : Text) : Prop where
  fit : ∀ c ∈ t, c.isUnfit = false
  front : t.head?.any CodePoint.isBlank = false
  named : t.any (· ≠ .scalar '.') = true
  spelled : Path.onDisk t = t

/-- Then the file of a record's image goes by the record's id, as it is. -/
theorem Record.stem_fileName {r : Record} (h : r.id.plain.IsStem) (quality : Text) :
    Path.stem (Path.onDisk (r.target quality).fileName) = r.id.plain := by
  have hfit := map_fitSign_of_fit h.fit
  have hfront : r.id.plain.dropWhile CodePoint.isBlank = r.id.plain := by
    have hhead := h.front
    cases ht : r.id.plain with
    | nil => rfl
    | cons c t =>
      rw [ht] at hhead
      exact List.dropWhile_cons_of_neg (Bool.eq_false_iff.mp hhead)
  obtain ⟨e, he, hencodable, hnone⟩ := exists_of_extension (extension_mem _)
  rw [fileName_eq, hfit, hfront, he, Path.onDisk_append_point hencodable, h.spelled,
    Path.stem_append hnone, if_pos h.named]

end GalleryScan
