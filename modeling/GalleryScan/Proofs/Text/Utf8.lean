import GalleryScan.Text.Utf8

/-!
# Bytes read back as the text that was written

A text without lone surrogates is read back from its bytes:

> `t.encode = .ok bs → Bytes.decode bs = .ok t`

One step of reading undoes the writing of one character, for each of the four widths; the rest is
an induction over the text.
-/

set_option autoImplicit false

namespace GalleryScan

namespace Bytes

theorem toNat_ofNat_of_lt {n : Nat} (h : n < 256) : (UInt8.ofNat n).toNat = n := by
  rw [UInt8.toNat_ofNat']
  exact Nat.mod_eq_of_lt h

/-! ## Bytes after the first one -/

theorem isContinuation_ofNat {n : Nat} (h : n < 64) :
    isContinuation (.ofNat (0x80 + n)) = true := by
  have hn := toNat_ofNat_of_lt (n := 0x80 + n) (by omega)
  simp only [isContinuation, Bool.and_eq_true, decide_eq_true_eq, UInt8.le_iff_toNat_le,
    UInt8.lt_iff_toNat_lt, hn, UInt8.reduceToNat]
  omega

theorem payload_ofNat {n : Nat} (h : n < 64) : payload (.ofNat (0x80 + n)) = n := by
  rw [payload, toNat_ofNat_of_lt (by omega)]
  omega

theorem stepWide_go_ofNat (n m count k : Nat) (h : m < 64) (t : Bytes) :
    stepWide.go n count (k + 1) (.ofNat (0x80 + m) :: t)
      = stepWide.go (64 * n + m) (count + 1) k t := by
  rw [stepWide.go, if_pos (isContinuation_ofNat h), payload_ofNat h]

theorem stepWide_ofNat {n m more : Nat} {low high : UInt8} (h : m < 64)
    (hlow : low.toNat ≤ 0x80 + m) (hhigh : 0x80 + m ≤ high.toNat) (t : Bytes) :
    stepWide n low high more (.ofNat (0x80 + m) :: t) = stepWide.go (64 * n + m) 2 more t := by
  have hm := toNat_ofNat_of_lt (n := 0x80 + m) (by omega)
  rw [stepWide, if_neg, payload_ofNat h]
  simp only [UInt8.lt_iff_toNat_lt, hm, Bool.or_eq_true, decide_eq_true_eq]
  omega

/-! ## One character, by its width -/

theorem step_one {n : Nat} (h : n < 0x80) (r : Bytes) : step (.ofNat n) r = .char n r := by
  have hn := toNat_ofNat_of_lt (n := n) (by omega)
  have hlow : UInt8.ofNat n < 0x80 := by
    rw [UInt8.lt_iff_toNat_lt, hn]
    exact h
  rw [step, if_pos hlow, hn]

theorem step_two {n : Nat} (h : 0x80 ≤ n) (h' : n < 0x800) (r : Bytes) :
    step (.ofNat (0xC0 + n / 64)) (.ofNat (0x80 + n % 64) :: r) = .char n r := by
  have hb := toNat_ofNat_of_lt (n := 0xC0 + n / 64) (by omega)
  simp only [step, UInt8.lt_iff_toNat_lt, hb, UInt8.reduceToNat]
  rw [if_neg (by omega), if_neg (by omega), if_pos (by omega),
    stepWide_ofNat (by omega) (by simp) (by simp; omega), stepWide.go]
  congr 1
  omega

theorem step_three {n : Nat} (h : 0x800 ≤ n) (h' : n < 0xD800 ∨ 0xE000 ≤ n) (h'' : n < 0x10000)
    (r : Bytes) :
    step (.ofNat (0xE0 + n / 4096)) (.ofNat (0x80 + n / 64 % 64) :: .ofNat (0x80 + n % 64) :: r)
      = .char n r := by
  have hb := toNat_ofNat_of_lt (n := 0xE0 + n / 4096) (by omega)
  simp only [step, ← UInt8.toNat_inj, UInt8.lt_iff_toNat_lt, hb, UInt8.reduceToNat]
  rw [if_neg (by omega), if_neg (by omega), if_neg (by omega), if_pos (by omega),
    stepWide_ofNat (by omega), stepWide_go_ofNat _ _ _ _ (by omega), stepWide.go]
  · congr 1
    omega
  · rw [apply_ite UInt8.toNat]
    split
    · simp
      omega
    · simp
  · rw [apply_ite UInt8.toNat]
    split <;> simp <;> omega

theorem step_four {n : Nat} (h : 0x10000 ≤ n) (h' : n < 0x110000) (r : Bytes) :
    step (.ofNat (0xF0 + n / 262144)) (.ofNat (0x80 + n / 4096 % 64)
      :: .ofNat (0x80 + n / 64 % 64) :: .ofNat (0x80 + n % 64) :: r) = .char n r := by
  have hb := toNat_ofNat_of_lt (n := 0xF0 + n / 262144) (by omega)
  simp only [step, ← UInt8.toNat_inj, UInt8.lt_iff_toNat_lt, hb, UInt8.reduceToNat]
  rw [if_neg (by omega), if_neg (by omega), if_neg (by omega), if_neg (by omega),
    if_pos (by omega), stepWide_ofNat (by omega), stepWide_go_ofNat _ _ _ _ (by omega),
    stepWide_go_ofNat _ _ _ _ (by omega), stepWide.go]
  · congr 1
    omega
  · rw [apply_ite UInt8.toNat]
    split
    · simp
      omega
    · simp
  · rw [apply_ite UInt8.toNat]
    split <;> simp <;> omega

/-- One step of reading undoes the writing of one character. -/
theorem step_bytesOf {n : Nat} (h : n < 0xD800 ∨ 0xE000 ≤ n) (h' : n < 0x110000) (r : Bytes) :
    ∃ b t, Text.bytesOf n = b :: t ∧ step b (t ++ r) = .char n r := by
  unfold Text.bytesOf
  dsimp only
  by_cases h₁ : n < 0x80
  · rw [if_pos h₁]
    exact ⟨_, _, rfl, step_one h₁ r⟩
  rw [if_neg h₁]
  by_cases h₂ : n < 0x800
  · rw [if_pos h₂]
    refine ⟨_, _, rfl, ?_⟩
    simpa using step_two (by omega) h₂ r
  rw [if_neg h₂]
  by_cases h₃ : n < 0x10000
  · rw [if_pos h₃]
    refine ⟨_, _, rfl, ?_⟩
    simpa using step_three (by omega) h h₃ r
  · rw [if_neg h₃]
    refine ⟨_, _, rfl, ?_⟩
    simpa using step_four (by omega) h' r

end Bytes

/-! ## A whole text -/

theorem CodePoint.ofNat_val (c : CodePoint) : CodePoint.ofNat c.val = c := by
  cases c with
  | scalar c =>
    have hvalid : c.toNat.isValidChar := c.valid
    have hs : ¬ (firstSurrogate ≤ c.toNat ∧ c.toNat < firstSurrogate + 2048) := by
      rcases hvalid with h | h
      · simp only [firstSurrogate]
        omega
      · simp only [firstSurrogate]
        omega
    rw [val, ofNat, dif_neg hs, if_pos hvalid, Char.ofNat_toNat]
  | surrogate n =>
    have hn := n.isLt
    have hs : firstSurrogate ≤ firstSurrogate + n.val
        ∧ firstSurrogate + n.val < firstSurrogate + 2048 := by omega
    rw [val, ofNat, dif_pos hs]
    have hsub : firstSurrogate + n.val - firstSurrogate = n.val := by omega
    exact congrArg CodePoint.surrogate (Fin.ext hsub)

theorem CodePoint.val_of_isScalar {c : CodePoint} (h : c.isScalar = true) :
    (c.val < 0xD800 ∨ 0xE000 ≤ c.val) ∧ c.val < 0x110000 := by
  cases c with
  | scalar c =>
    have hvalid : c.toNat.isValidChar := c.valid
    rcases hvalid with h | h
    · exact ⟨.inl h, by simp only [val]; omega⟩
    · exact ⟨.inr (by simp only [val]; omega), h.2⟩
  | surrogate n => cases h

/-- The first step of reading a text's bytes takes its first character. -/
theorem Bytes.exists_step_bytes {c : CodePoint} (h : c.isScalar = true) (t : Text) :
    ∃ b bs, Text.bytes (c :: t) = b :: bs ∧ step b bs = .char c.val t.bytes := by
  obtain ⟨hval, hmax⟩ := CodePoint.val_of_isScalar h
  obtain ⟨b, bs, hbytes, hstep⟩ := step_bytesOf hval hmax (Text.bytes t)
  refine ⟨b, bs ++ Text.bytes t, ?_, hstep⟩
  rw [Text.bytes, List.flatMap_cons, hbytes]
  rfl

theorem Bytes.decodeFrom_bytes {t : Text} (h : t.isEncodable = true) (position : Nat) :
    Bytes.decodeFrom position t.bytes = .ok t := by
  induction t generalizing position with
  | nil => rw [Text.bytes, List.flatMap_nil, decodeFrom]
  | cons c t ih =>
    obtain ⟨hc, ht⟩ : c.isScalar = true ∧ Text.isEncodable t = true := by
      simpa [Text.isEncodable] using h
    obtain ⟨b, bs, hcons, hstep⟩ := exists_step_bytes hc t
    rw [hcons, decodeFrom]
    split
    · rename_i n r hchar
      rw [hstep] at hchar
      cases hchar
      rw [ih ht, Except.map, CodePoint.ofNat_val]
    · rename_i hbad
      rw [hstep] at hbad
      cases hbad

/-- A reader who puts up with other bytes reads these in the same way. -/
theorem Bytes.decodeLenient_bytes {t : Text} (h : t.isEncodable = true) :
    Bytes.decodeLenient t.bytes = t := by
  induction t with
  | nil => rw [Text.bytes, List.flatMap_nil, decodeLenient]
  | cons c t ih =>
    obtain ⟨hc, ht⟩ : c.isScalar = true ∧ Text.isEncodable t = true := by
      simpa [Text.isEncodable] using h
    obtain ⟨b, bs, hcons, hstep⟩ := exists_step_bytes hc t
    rw [hcons, decodeLenient]
    split
    · rename_i n r hchar
      rw [hstep] at hchar
      cases hchar
      rw [ih ht, CodePoint.ofNat_val]
    · rename_i hbad
      rw [hstep] at hbad
      cases hbad

/-- Bytes are read back as the text that was written in them. -/
theorem Bytes.decode_bytes {t : Text} (h : t.isEncodable = true) :
    Bytes.decode t.bytes = .ok t := decodeFrom_bytes h 0

theorem Text.encodeFault?_eq_none_iff {position : Nat} {t : Text} :
    Text.encodeFault? position t = none ↔ t.isEncodable = true := by
  induction t generalizing position with
  | nil => exact ⟨fun _ => rfl, fun _ => rfl⟩
  | cons c t ih =>
    cases c with
    | scalar c => exact ih
    | surrogate n => exact ⟨fun h => (by cases h), fun h => (by cases h)⟩

theorem Text.encode_eq_ok_iff {t : Text} {bs : Bytes} :
    t.encode = .ok bs ↔ t.isEncodable = true ∧ bs = t.bytes := by
  unfold Text.encode
  split
  · rename_i fault hfault
    constructor
    · intro h
      cases h
    · intro h
      rw [Text.encodeFault?_eq_none_iff.mpr h.1] at hfault
      cases hfault
  · rename_i hnone
    have hok := Text.encodeFault?_eq_none_iff.mp hnone
    constructor
    · intro h
      cases h
      exact ⟨hok, rfl⟩
    · intro h
      rw [h.2]

end GalleryScan
