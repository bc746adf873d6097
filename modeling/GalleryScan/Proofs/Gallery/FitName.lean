import GalleryScan.Cache.Store
import GalleryScan.Download.Transfer
import GalleryScan.Proofs.Gallery.FileName

/-!
# Names stay where they are put

A name that was made fit cannot lead out of its folder: it is one name for every system, with no
blank at either end, and making it fit once more changes nothing. Whatever the user's name and the
record, this holds of the user's folder and of the image's file in it:

> `Path.names path = Path.folderNames output ++ [user, name]`

The file goes by an extension that neither the cache nor a draft of it has.
-/

set_option autoImplicit false

namespace GalleryScan

namespace Text

/-- A text that every system takes for the name of an entry of its own. -/
structure IsFit (t : Text) : Prop where
  printable : ∀ c ∈ t, 32 ≤ c.val
  allowed : ∀ c ∈ t, c ∉ Text.ofString "\\/*?:\x22<>|"
  front : ∀ c ∈ t.head?, c.isBlank = false
  back : ∀ c ∈ t.getLast?, c.isBlank = false
  some : t ≠ ""
  here : t ≠ "."
  above : t ≠ ".."

variable {t default : Text}

/-! ## Fit names -/

theorem isUnfit_eq_false_iff {c : CodePoint} : c.isUnfit = false
    ↔ 32 ≤ c.val ∧ c ∉ Text.ofString "\\/*?:\x22<>|" := by
  rw [CodePoint.isUnfit, Bool.or_eq_false_iff, decide_eq_false_iff_not, Nat.not_lt,
    ← Bool.not_eq_true, List.contains_iff_mem]

theorem IsFit.isUnfit (h : t.IsFit) : ∀ c ∈ t, c.isUnfit = false := fun c hc =>
  isUnfit_eq_false_iff.mpr ⟨h.printable c hc, h.allowed c hc⟩

theorem IsFit.isName (h : t.IsFit) : Path.IsName t :=
  ⟨fun hmem => h.allowed _ hmem (by decide), h.some, h.here, h.above⟩

/-- Whatever it is made from, a name that was made fit is fit, if the default is. -/
theorem isFit_fitName (h : default.IsFit) (name : Text) : (fitName default name).IsFit := by
  have hsigns : ∀ c ∈ fitName default name, 32 ≤ c.val ∧ c ∉ Text.ofString "\\/*?:\x22<>|" :=
    fun c hc => isUnfit_eq_false_iff.mp (isUnfit_of_mem_fitName h.isUnfit hc)
  obtain ⟨-, hsome, hhere, habove⟩ := isName_fitName h.isUnfit h.isName name
  refine ⟨fun c hc => (hsigns c hc).1, fun c hc => (hsigns c hc).2, ?_, ?_, hsome, hhere, habove⟩
  all_goals
    unfold fitName
    dsimp only
    split
  · exact h.front
  · exact fun c hc => out_of_head_trim hc
  · exact h.back
  · exact fun c hc => out_of_last_trim hc

/-- A fit name needs no change. -/
theorem fitName_of_isFit (h : t.IsFit) (default : Text) : fitName default t = t := by
  have hmap : t.map (fun c => if c.isUnfit then .scalar '_' else c) = t :=
    Record.map_fitSign_of_fit h.isUnfit
  rw [fitName, hmap, strip, trim_of_ends h.front h.back]
  exact if_neg (by simp only [not_or]; exact ⟨h.some, h.here, h.above⟩)

theorem fitName_fitName (h : default.IsFit) (name : Text) :
    fitName default (fitName default name) = fitName default name :=
  fitName_of_isFit (isFit_fitName h name) default

theorem isFit_folderDefault : folderDefault.IsFit := by
  refine ⟨?_, ?_, ?_, ?_, ?_, ?_, ?_⟩ <;> decide

end Text

namespace Record

theorem isFit_default (url : Text) : (Text.ofString "image" ++ extensionOf url).IsFit := by
  have hext : ∀ e ∈ extensions, (Text.ofString "image" ++ e).IsFit := by
    simp only [extensions, List.mem_cons, List.not_mem_nil, or_false]
    rintro e (rfl | rfl | rfl)
    all_goals refine ⟨?_, ?_, ?_, ?_, ?_, ?_, ?_⟩ <;> decide
  exact hext _ (extension_mem url)

theorem isFit_fileName (quality : Text) (r : Record) : (r.target quality).fileName.IsFit :=
  Text.isFit_fitName (isFit_default _) _

/-- The file of an image has an extension of an image. -/
theorem exists_extension (quality : Text) (r : Record) :
    ∃ e ∈ extensions, e <:+ (r.target quality).fileName := by
  rw [fileName_eq]
  exact ⟨_, extension_mem (sourceUrl quality r.url), List.suffix_append ..⟩

/-- No file of an image ends in anything that no such extension ends in. -/
theorem not_suffix_fileName {e : Text} (hshort : e.length ≤ 4) (he : ∀ x ∈ extensions, ¬ e <:+ x)
    (quality : Text) (r : Record) : ¬ e <:+ (r.target quality).fileName := by
  intro hsuffix
  obtain ⟨x, hx, hends⟩ := exists_extension quality r
  have hlength := Nat.le_trans hshort (four_le_extension x hx)
  exact he x hx (List.suffix_of_suffix_length_le hsuffix hends hlength)

theorem fileName_ne_cache (quality : Text) (r : Record) :
    (r.target quality).fileName ≠ Cache.fileName := by
  intro hsame
  have hsuffix : Text.ofString "json" <:+ Cache.fileName := by decide
  rw [← hsame] at hsuffix
  exact not_suffix_fileName (by decide) (by decide) quality r hsuffix

theorem fileName_ne_draft (quality : Text) (r : Record) (w : Text) :
    (r.target quality).fileName ≠ ".metadata-" ++ w ++ ".tmp" := by
  intro hsame
  have hsuffix : Text.ofString ".tmp" <:+ ".metadata-" ++ w ++ ".tmp" := List.suffix_append ..
  rw [← hsame] at hsuffix
  exact not_suffix_fileName (by decide) (by decide) quality r hsuffix

end Record

/-! ## Paths that go one name down -/

namespace Path

variable {p n : Text}

theorem getLast?_join (h : IsName n) : (join p n).getLast? = n.getLast? := by
  have hn : n.getLast? ≠ none := by
    rw [Ne, List.getLast?_eq_none_iff]
    exact h.some
  obtain ⟨c, hc⟩ := Option.ne_none_iff_exists'.mp hn
  rw [join, isAbsolute_of_isName h, if_neg Bool.false_ne_true]
  split
  · rw [List.getLast?_append, hc]
    rfl
  · rw [List.getLast?_append, List.getLast?_cons, hc]
    rfl

theorem folderNames_join (h : IsName n) : folderNames (join p n) = folderNames p ++ [n] := by
  have hend : (join p n).getLast? ≠ some slash := by
    rw [getLast?_join h]
    exact fun hlast => h.slash (List.mem_of_getLast? hlast)
  rw [folderNames, if_neg (Disk.join_ne_nil h), if_neg hend, names_join h]

end Path

/-- Whatever the user's name, the user's folder is one fit name below the output folder; and
whatever the record, its image's file is one fit name below that, neither the cache nor a draft of
it. Making a name fit again changes nothing. -/
theorem stays_in_folder (output username quality : Text) (r : Record) (hasBar : Bool) :
    let user := Text.fitName folderDefault username
    let name := (r.target quality).fileName
    let folder := (Cache.ofUser output username).folder
    let path := (r.transfer quality folder hasBar).path
    user.IsFit ∧ folder = Path.join output user
      ∧ Path.names folder = Path.folderNames output ++ [user]
      ∧ Path.isAbsolute folder = Path.isAbsolute output
      ∧ name.IsFit ∧ path = Path.join folder name
      ∧ Path.names path = Path.folderNames output ++ [user, name]
      ∧ Path.isAbsolute path = Path.isAbsolute output
      ∧ (∃ e ∈ [Text.ofString ".jpeg", ".png", ".webp"], e <:+ name)
      ∧ name ≠ "metadata.json" ∧ (∀ w : Text, name ≠ ".metadata-" ++ w ++ ".tmp")
      ∧ (∀ t, Text.fitName folderDefault (Text.fitName folderDefault t)
        = Text.fitName folderDefault t)
      ∧ ∀ url t, let default := Text.ofString "image" ++ extensionOf url
        Text.fitName default (Text.fitName default t) = Text.fitName default t := by
  intro user name folder path
  have huser : user.IsFit := Text.isFit_fitName Text.isFit_folderDefault username
  have hname : name.IsFit := r.isFit_fileName quality
  refine ⟨huser, rfl, Path.names_join huser.isName, Path.isAbsolute_join huser.isName, hname, rfl,
    ?_, ?_, ?_, r.fileName_ne_cache quality, r.fileName_ne_draft quality,
    Text.fitName_fitName Text.isFit_folderDefault,
    fun url => Text.fitName_fitName (Record.isFit_default url)⟩
  · show Path.names (Path.join (Path.join output user) name) = _
    rw [Path.names_join hname.isName, Path.folderNames_join huser.isName, List.append_assoc]
    rfl
  · show Path.isAbsolute (Path.join (Path.join output user) name) = _
    rw [Path.isAbsolute_join hname.isName, Path.isAbsolute_join huser.isName]
  · obtain ⟨e, he, hsuffix⟩ := r.exists_extension quality
    refine ⟨e, ?_, hsuffix⟩
    simp only [Record.extensions, List.mem_cons, List.not_mem_nil, or_false] at he ⊢
    rcases he with rfl | rfl | rfl
    · exact .inr (.inl rfl)
    · exact .inr (.inr rfl)
    · exact .inl rfl

end GalleryScan
