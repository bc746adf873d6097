import GalleryScan.Proofs.Text.Utf8
import GalleryScan.Web.Parameters
import Mathlib.Data.List.TakeWhile

/-!
# Texts as a query spells them

A query spells a text byte by byte, each byte by a percent sign and two hexadecimal digits of either
case. A letter, a digit and four signs more may stand for themselves, and a plus sign for a blank.
So one text has many spellings, and whichever of them is taken, the text is read back from it:

> `Parameters.Spells t w → Parameters.decoded w = t`

The plus signs go first and the escapes after them, which is why an escaped plus sign stays one.
-/

set_option autoImplicit false

namespace GalleryScan

namespace CodePoint

/-- A sign that stands for itself in every address. -/
def isUnreserved (c : CodePoint) : Bool :=
  c.isAsciiLetter || c.isAsciiDigit || (Text.ofString "-._~").contains c

/-- A sign that a spelling may hold. -/
def isSpelling (c : CodePoint) : Bool :=
  c.isUnreserved || c = .scalar '+' || c = .scalar '%'

variable {c d : CodePoint}

theorem isSpelling_of_isUnreserved (h : c.isUnreserved = true) : c.isSpelling = true := by
  simp [isSpelling, h]

theorem ne_of_isUnreserved (h : c.isUnreserved = true) (hd : d.isUnreserved = false) : c ≠ d := by
  rintro rfl
  rw [h] at hd
  cases hd

theorem ne_of_isSpelling (h : c.isSpelling = true) (hd : d.isSpelling = false) : c ≠ d := by
  rintro rfl
  rw [h] at hd
  cases hd

theorem val_lt_of_isUnreserved (h : c.isUnreserved = true) : c.val < 128 := by
  simp only [isUnreserved, isAsciiLetter, isAsciiDigit, Bool.or_eq_true, Bool.and_eq_true,
    decide_eq_true_eq, List.contains_iff_mem] at h
  rcases h with (h | h) | h
  · omega
  · omega
  · have hsigns : ∀ d ∈ Text.ofString "-._~", d.val < 128 := by decide
    exact hsigns c h

theorem isAscii_of_isSpelling (h : c.isSpelling = true) : c.isAscii = true := by
  simp only [isSpelling, Bool.or_eq_true, decide_eq_true_eq] at h
  rcases h with (h | rfl) | rfl
  · exact decide_eq_true (val_lt_of_isUnreserved h)
  · rfl
  · rfl

theorem isScalar_of_val_lt (h : c.val < 128) : c.isScalar = true := by
  cases c with
  | scalar c => rfl
  | surrogate n =>
    simp only [val, firstSurrogate] at h
    omega

/-- Hexadecimal digits are letters and digits. -/
theorem isUnreserved_of_hexValue? {n : Nat} (h : c.hexValue? = some n) :
    c.isUnreserved = true := by
  have hrange : (48 ≤ c.val ∧ c.val ≤ 57) ∨ (97 ≤ c.val ∧ c.val ≤ 102)
      ∨ (65 ≤ c.val ∧ c.val ≤ 70) := by
    unfold hexValue? at h
    dsimp only at h
    split at h
    · exact .inl ‹_›
    split at h
    · exact .inr (.inl ‹_›)
    split at h
    · exact .inr (.inr ‹_›)
    · cases h
  simp only [isUnreserved, isAsciiLetter, isAsciiDigit, Bool.or_eq_true, Bool.and_eq_true,
    decide_eq_true_eq]
  omega

end CodePoint

/-! ## Percent signs -/

namespace Text

/-- Bytes, each of them as a percent sign and two hexadecimal digits. -/
inductive Escapes : Bytes → Text → Prop where
  | nil : Escapes [] []
  | cons {bs : Bytes} {t : Text} (b : UInt8) (high low : CodePoint)
      (first : high.hexValue? = some (b.toNat / 16)) (second : low.hexValue? = some (b.toNat % 16))
      (rest : Escapes bs t) : Escapes (b :: bs) (.scalar '%' :: high :: low :: t)

theorem percentBytes_cons_plain {c : CodePoint} (h : c ≠ .scalar '%') (t : Text) :
    percentBytes (c :: t) = .ofNat c.val :: percentBytes t := by
  match t with
  | [] => rfl
  | [d] => rfl
  | d :: e :: t =>
    rw [percentBytes]
    simp [h]

theorem percentBytes_cons_escape {high low : CodePoint} {b : UInt8}
    (first : high.hexValue? = some (b.toNat / 16)) (second : low.hexValue? = some (b.toNat % 16))
    (t : Text) : percentBytes (.scalar '%' :: high :: low :: t) = b :: percentBytes t := by
  rw [percentBytes, first, second]
  show UInt8.ofNat (16 * (b.toNat / 16) + b.toNat % 16) :: percentBytes t = _
  rw [Nat.div_add_mod, UInt8.ofNat_toNat]

theorem exists_escapes (bs : Bytes) : ∃ e, Escapes bs e := by
  have hdigit : ∀ n < 16, (CodePoint.scalar n.digitChar).hexValue? = some n := by decide
  induction bs with
  | nil => exact ⟨[], .nil⟩
  | cons b bs ih =>
    obtain ⟨e, he⟩ := ih
    have hlt := b.toNat_lt
    exact ⟨_, .cons b _ _ (hdigit _ (by omega)) (hdigit _ (by omega)) he⟩

/-- The signs of escapes stand for themselves in a spelling. -/
theorem Escapes.isSpelling {bs : Bytes} {e : Text} (h : Escapes bs e) :
    ∀ c ∈ e, c.isSpelling = true := by
  induction h with
  | nil => exact List.forall_mem_nil _
  | cons b high low first second rest ih =>
    intro c hc
    simp only [List.mem_cons] at hc
    rcases hc with rfl | rfl | rfl | hc
    · rfl
    · exact CodePoint.isSpelling_of_isUnreserved (CodePoint.isUnreserved_of_hexValue? first)
    · exact CodePoint.isSpelling_of_isUnreserved (CodePoint.isUnreserved_of_hexValue? second)
    · exact ih c hc

/-- An ASCII text is read in one go. -/
theorem percentDecoded_of_isAscii {t : Text} (h : ∀ c ∈ t, c.isAscii = true) :
    percentDecoded t = (percentBytes t).decodeLenient := by
  cases t with
  | nil =>
    rw [percentDecoded, percentBytes, Bytes.decodeLenient]
  | cons c t =>
    have hrest : ∀ d ∈ t, d.isAscii = true := fun d hd => h d (List.mem_cons_of_mem c hd)
    have hdrop : t.dropWhile CodePoint.isAscii = [] := List.dropWhile_eq_nil_iff.mpr hrest
    have htake : t.takeWhile CodePoint.isAscii = t := List.takeWhile_eq_self_iff.mpr hrest
    rw [percentDecoded, if_pos (h c (List.mem_cons_self ..))]
    dsimp only
    rw [htake, hdrop, percentDecoded, List.append_nil]

end Text

/-! ## Spellings -/

namespace Parameters

/-- A text and how a query may spell it. -/
inductive Spells : Text → Text → Prop where
  | nil : Spells [] []
  | plain {t w : Text} (c : CodePoint) (free : c.isUnreserved = true) (rest : Spells t w) :
      Spells (c :: t) (c :: w)
  | blank {t w : Text} (rest : Spells t w) : Spells (.scalar ' ' :: t) (.scalar '+' :: w)
  | escaped {t w e : Text} (c : CodePoint) (character : c.isScalar = true)
      (escape : Text.Escapes (Text.bytesOf c.val) e) (rest : Spells t w) : Spells (c :: t) (e ++ w)

/-- The sign that is read where one is written. -/
def withBlank (c : CodePoint) : CodePoint := if c = .scalar '+' then .scalar ' ' else c

variable {t w : Text}

theorem withBlank_of_isUnreserved {c : CodePoint} (h : c.isUnreserved = true) :
    withBlank c = c :=
  if_neg (CodePoint.ne_of_isUnreserved h (by decide))

theorem percentBytes_escapes {bs : Bytes} {e : Text} (h : Text.Escapes bs e) (w : Text) :
    Text.percentBytes ((e ++ w).map withBlank) = bs ++ Text.percentBytes (w.map withBlank) := by
  induction h with
  | nil => rfl
  | cons b high low first second rest ih =>
    simp only [List.cons_append, List.map_cons]
    rw [withBlank_of_isUnreserved (CodePoint.isUnreserved_of_hexValue? first),
      withBlank_of_isUnreserved (CodePoint.isUnreserved_of_hexValue? second),
      show withBlank (.scalar '%') = .scalar '%' from rfl,
      Text.percentBytes_cons_escape first second, ih]

/-- A spelling stands for the bytes of the text. -/
theorem Spells.percentBytes (h : Spells t w) : Text.percentBytes (w.map withBlank) = t.bytes := by
  induction h with
  | nil => rfl
  | plain c free rest ih =>
    have hplain : c ≠ .scalar '%' := CodePoint.ne_of_isUnreserved free (by decide)
    have hbyte : Text.bytesOf c.val = [.ofNat c.val] :=
      if_pos (CodePoint.val_lt_of_isUnreserved free)
    rw [List.map_cons, withBlank_of_isUnreserved free, Text.percentBytes_cons_plain hplain, ih,
      Text.bytes, Text.bytes, List.flatMap_cons, hbyte]
    rfl
  | blank rest ih =>
    rw [List.map_cons, show withBlank (.scalar '+') = .scalar ' ' from rfl,
      Text.percentBytes_cons_plain (by decide), ih]
    rfl
  | escaped c character escape rest ih =>
    rw [percentBytes_escapes escape, ih, Text.bytes, Text.bytes, List.flatMap_cons]

theorem Spells.isEncodable (h : Spells t w) : t.isEncodable = true := by
  rw [Text.isEncodable, List.all_eq_true]
  induction h with
  | nil => exact List.forall_mem_nil _
  | plain c free rest ih =>
    exact List.forall_mem_cons.mpr
      ⟨CodePoint.isScalar_of_val_lt (CodePoint.val_lt_of_isUnreserved free), ih⟩
  | blank rest ih => exact List.forall_mem_cons.mpr ⟨rfl, ih⟩
  | escaped c character escape rest ih => exact List.forall_mem_cons.mpr ⟨character, ih⟩

/-- Just the texts without lone surrogates have a spelling: that of all their bytes, if no other. -/
theorem exists_spells_iff : (∃ w, Spells t w) ↔ t.isEncodable = true := by
  refine ⟨fun ⟨w, h⟩ => h.isEncodable, fun h => ?_⟩
  rw [Text.isEncodable, List.all_eq_true] at h
  induction t with
  | nil => exact ⟨[], .nil⟩
  | cons c t ih =>
    obtain ⟨hc, ht⟩ := List.forall_mem_cons.mp h
    obtain ⟨w, hw⟩ := ih ht
    obtain ⟨e, he⟩ := Text.exists_escapes (Text.bytesOf c.val)
    exact ⟨e ++ w, .escaped c hc he hw⟩

theorem Spells.isSpelling (h : Spells t w) : ∀ c ∈ w, c.isSpelling = true := by
  induction h with
  | nil => exact List.forall_mem_nil _
  | plain c free rest ih =>
    exact List.forall_mem_cons.mpr ⟨CodePoint.isSpelling_of_isUnreserved free, ih⟩
  | blank rest ih => exact List.forall_mem_cons.mpr ⟨rfl, ih⟩
  | escaped c character escape rest ih =>
    exact List.forall_mem_append.mpr ⟨escape.isSpelling, ih⟩

/-- A text of letters and digits may be spelled as it is. -/
theorem spells_of_isUnreserved (h : ∀ c ∈ t, c.isUnreserved = true) : Spells t t := by
  induction t with
  | nil => exact .nil
  | cons c t ih =>
    exact .plain c (h c (List.mem_cons_self ..)) (ih fun d hd => h d (List.mem_cons_of_mem c hd))

/-- A text is read back from every spelling of it. -/
theorem Spells.decoded (h : Spells t w) : Parameters.decoded w = t := by
  have hascii : ∀ c ∈ w.map withBlank, c.isAscii = true := by
    intro c hc
    obtain ⟨d, hd, rfl⟩ := List.mem_map.mp hc
    rw [withBlank]
    split
    · rfl
    · exact CodePoint.isAscii_of_isSpelling (h.isSpelling d hd)
  show Text.percentDecoded (w.map withBlank) = t
  rw [Text.percentDecoded_of_isAscii hascii, h.percentBytes,
    Bytes.decodeLenient_bytes h.isEncodable]

/-- What is empty is spelled so, and nothing else is. -/
theorem Spells.eq_nil_iff (h : Spells t w) : w = [] ↔ t = [] := by
  constructor
  · rintro rfl
    rw [← h.decoded, Parameters.decoded, List.map_nil, Text.percentDecoded]
  · rintro rfl
    cases h
    rfl

end Parameters

end GalleryScan
