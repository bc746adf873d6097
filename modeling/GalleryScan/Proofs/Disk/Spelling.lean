import GalleryScan.Disk.Name
import GalleryScan.Proofs.Text.Utf8

/-!
# Bytes as the paths that spell them

Whatever the bytes of a path are, the path that is read back has these bytes again:

> `Path.bytes (Path.ofBytes bs) = bs`

A character comes from exactly the bytes that it is written as, and a byte that is part of none is
kept as half of a surrogate pair. So paths that are different in bytes stay different when they are
read back, and an extension is read back by itself, whatever stands before it.
-/

set_option autoImplicit false

namespace GalleryScan

namespace Bytes

/-! ## The bytes behind a step of reading -/

theorem stepWide_go_eq_char {n count k m : Nat} {t r : Bytes}
    (h : stepWide.go n count (k + 1) t = .char m r) :
    ∃ (c : UInt8) (t' : Bytes), t = c :: t' ∧ (0x80 ≤ c.toNat ∧ c.toNat < 0xC0)
      ∧ stepWide.go (64 * n + (c.toNat - 0x80)) (count + 1) k t' = .char m r := by
  cases t with
  | nil => cases h
  | cons c t =>
    rw [stepWide.go] at h
    split at h
    · rename_i hc
      simp only [isContinuation, Bool.and_eq_true, decide_eq_true_eq, UInt8.le_iff_toNat_le,
        UInt8.lt_iff_toNat_lt, UInt8.reduceToNat] at hc
      have hpayload : payload c = c.toNat - 0x80 := by
        rw [payload]
        omega
      rw [hpayload] at h
      exact ⟨c, t, rfl, hc, h⟩
    · cases h

theorem stepWide_eq_char {n more m : Nat} {low high : UInt8} {t r : Bytes}
    (hlow : 0x80 ≤ low.toNat) (hhigh : high.toNat < 0xC0)
    (h : stepWide n low high more t = .char m r) :
    ∃ (c : UInt8) (t' : Bytes), t = c :: t' ∧ low.toNat ≤ c.toNat ∧ c.toNat ≤ high.toNat
      ∧ stepWide.go (64 * n + (c.toNat - 0x80)) 2 more t' = .char m r := by
  cases t with
  | nil => cases h
  | cons c t =>
    rw [stepWide] at h
    split at h
    · cases h
    · rename_i hc
      simp only [Bool.or_eq_true, decide_eq_true_eq, UInt8.lt_iff_toNat_lt, not_or,
        Nat.not_lt] at hc
      have hpayload : payload c = c.toNat - 0x80 := by
        rw [payload]
        omega
      rw [hpayload] at h
      exact ⟨c, t, rfl, hc.1, hc.2, h⟩

theorem ofNat_eq_of_toNat {b : UInt8} {n : Nat} (h : n = b.toNat) : UInt8.ofNat n = b := by
  rw [h]
  exact UInt8.ofNat_toNat

theorem bytesOf_two {b c : UInt8} {n : Nat} (hb : 0xC2 ≤ b.toNat ∧ b.toNat < 0xE0)
    (hc : 0x80 ≤ c.toNat ∧ c.toNat < 0xC0)
    (hn : n = 64 * (b.toNat - 0xC0) + (c.toNat - 0x80)) : Text.bytesOf n = [b, c] := by
  have hfirst : 0xC0 + n / 64 = b.toNat := by omega
  have hsecond : 0x80 + n / 1 % 64 = c.toNat := by omega
  rw [Text.bytesOf, if_neg (by omega), if_pos (by omega)]
  dsimp only
  rw [ofNat_eq_of_toNat hfirst, ofNat_eq_of_toNat hsecond]

theorem bytesOf_three {b c c' : UInt8} {n : Nat} (hb : 0xE0 ≤ b.toNat ∧ b.toNat < 0xF0)
    (hc : 0x80 ≤ c.toNat ∧ c.toNat < 0xC0) (hc' : 0x80 ≤ c'.toNat ∧ c'.toNat < 0xC0)
    (hlow : b.toNat = 0xE0 → 0xA0 ≤ c.toNat)
    (hn : n = 64 * (64 * (b.toNat - 0xE0) + (c.toNat - 0x80)) + (c'.toNat - 0x80)) :
    Text.bytesOf n = [b, c, c'] := by
  have hfirst : 0xE0 + n / 4096 = b.toNat := by omega
  have hsecond : 0x80 + n / 64 % 64 = c.toNat := by omega
  have hthird : 0x80 + n / 1 % 64 = c'.toNat := by omega
  rw [Text.bytesOf, if_neg (by omega), if_neg (by omega), if_pos (by omega)]
  dsimp only
  rw [ofNat_eq_of_toNat hfirst, ofNat_eq_of_toNat hsecond, ofNat_eq_of_toNat hthird]

theorem bytesOf_four {b c c' c'' : UInt8} {n : Nat} (hb : 0xF0 ≤ b.toNat ∧ b.toNat < 0xF5)
    (hc : 0x80 ≤ c.toNat ∧ c.toNat < 0xC0) (hc' : 0x80 ≤ c'.toNat ∧ c'.toNat < 0xC0)
    (hc'' : 0x80 ≤ c''.toNat ∧ c''.toNat < 0xC0) (hlow : b.toNat = 0xF0 → 0x90 ≤ c.toNat)
    (hn : n = 64 * (64 * (64 * (b.toNat - 0xF0) + (c.toNat - 0x80)) + (c'.toNat - 0x80))
      + (c''.toNat - 0x80)) :
    Text.bytesOf n = [b, c, c', c''] := by
  have hfirst : 0xF0 + n / 262144 = b.toNat := by omega
  have hsecond : 0x80 + n / 4096 % 64 = c.toNat := by omega
  have hthird : 0x80 + n / 64 % 64 = c'.toNat := by omega
  have hfourth : 0x80 + n / 1 % 64 = c''.toNat := by omega
  rw [Text.bytesOf, if_neg (by omega), if_neg (by omega), if_neg (by omega)]
  dsimp only
  rw [ofNat_eq_of_toNat hfirst, ofNat_eq_of_toNat hsecond, ofNat_eq_of_toNat hthird,
    ofNat_eq_of_toNat hfourth]

/-- What is read as a character is what the character is written as. One case for each width. -/
theorem step_eq_char {b : UInt8} {t r : Bytes} {n : Nat} (h : step b t = .char n r) :
    b :: t = Text.bytesOf n ++ r ∧ (n < 0xD800 ∨ 0xE000 ≤ n) ∧ n < 0x110000 := by
  have hb := b.toNat_lt
  simp only [step, UInt8.lt_iff_toNat_lt, ← UInt8.toNat_inj, UInt8.reduceToNat] at h
  split at h
  · cases h
    rename_i hone
    refine ⟨?_, by omega, by omega⟩
    rw [Text.bytesOf, if_pos hone, UInt8.ofNat_toNat]
    rfl
  split at h
  · cases h
  split at h
  · obtain ⟨c, t₁, rfl, hlow, hhigh, h⟩ := stepWide_eq_char (by decide) (by decide) h
    rw [stepWide.go, Step.char.injEq] at h
    obtain ⟨hn, rfl⟩ := h
    simp only [UInt8.reduceToNat] at hlow hhigh
    refine ⟨?_, by omega, by omega⟩
    rw [bytesOf_two (b := b) (c := c) (by omega) (by omega) (by omega)]
    rfl
  split at h
  · obtain ⟨c, t₁, rfl, hlow, hhigh, h⟩ := stepWide_eq_char (by split <;> decide)
      (by split <;> decide) h
    obtain ⟨c', t₂, rfl, hc', h⟩ := stepWide_go_eq_char h
    rw [stepWide.go, Step.char.injEq] at h
    obtain ⟨hn, rfl⟩ := h
    -- The first byte narrows the range of the second: nothing too small, and no surrogate.
    have hbounds : (b.toNat = 0xE0 → 0xA0 ≤ c.toNat) ∧ (b.toNat = 0xED → c.toNat ≤ 0x9F)
        ∧ 0x80 ≤ c.toNat ∧ c.toNat < 0xC0 := by
      revert hlow hhigh
      split <;> split <;> simp only [UInt8.reduceToNat] <;> omega
    refine ⟨?_, by omega, by omega⟩
    rw [bytesOf_three (b := b) (by omega) hbounds.2.2 hc' hbounds.1 (by omega)]
    rfl
  split at h
  · obtain ⟨c, t₁, rfl, hlow, hhigh, h⟩ := stepWide_eq_char (by split <;> decide)
      (by split <;> decide) h
    obtain ⟨c', t₂, rfl, hc', h⟩ := stepWide_go_eq_char h
    obtain ⟨c'', t₃, rfl, hc'', h⟩ := stepWide_go_eq_char h
    rw [stepWide.go, Step.char.injEq] at h
    obtain ⟨hn, rfl⟩ := h
    -- Nothing too small here either, and nothing too large.
    have hbounds : (b.toNat = 0xF0 → 0x90 ≤ c.toNat) ∧ (b.toNat = 0xF4 → c.toNat ≤ 0x8F)
        ∧ 0x80 ≤ c.toNat ∧ c.toNat < 0xC0 := by
      revert hlow hhigh
      split <;> split <;> simp only [UInt8.reduceToNat] <;> omega
    refine ⟨?_, by omega, by omega⟩
    rw [bytesOf_four (b := b) (by omega) hbounds.2.2 hc' hc'' hbounds.1 (by omega)]
    rfl
  · cases h

/-! ## Bytes that form no character -/

theorem stepWide_go_eq_bad {n count k len : Nat} {reason : DecodeReason} {t r : Bytes}
    (h : stepWide.go n count k t = .bad reason len r) :
    ∃ cs : Bytes, t = cs ++ r ∧ len = count + cs.length ∧ ∀ c ∈ cs, 0x80 ≤ c.toNat := by
  induction k generalizing n count t with
  | zero => cases h
  | succ k ih =>
    cases t with
    | nil =>
      cases h
      exact ⟨[], rfl, rfl, List.forall_mem_nil _⟩
    | cons c t =>
      rw [stepWide.go] at h
      split at h
      · rename_i hc
        simp only [isContinuation, Bool.and_eq_true, decide_eq_true_eq, UInt8.le_iff_toNat_le,
          UInt8.reduceToNat] at hc
        obtain ⟨cs, rfl, rfl, hcs⟩ := ih h
        refine ⟨c :: cs, rfl, ?_, List.forall_mem_cons.mpr ⟨hc.1, hcs⟩⟩
        rw [List.length_cons]
        omega
      · cases h
        exact ⟨[], rfl, rfl, List.forall_mem_nil _⟩

theorem stepWide_eq_bad {n more len : Nat} {low high : UInt8} {reason : DecodeReason} {t r : Bytes}
    (hlow : 0x80 ≤ low.toNat) (h : stepWide n low high more t = .bad reason len r) :
    ∃ cs : Bytes, t = cs ++ r ∧ len = 1 + cs.length ∧ ∀ c ∈ cs, 0x80 ≤ c.toNat := by
  cases t with
  | nil =>
    cases h
    exact ⟨[], rfl, rfl, List.forall_mem_nil _⟩
  | cons c t =>
    rw [stepWide] at h
    split at h
    · cases h
      exact ⟨[], rfl, rfl, List.forall_mem_nil _⟩
    · rename_i hc
      simp only [Bool.or_eq_true, decide_eq_true_eq, UInt8.lt_iff_toNat_lt, not_or,
        Nat.not_lt] at hc
      obtain ⟨cs, rfl, rfl, hcs⟩ := stepWide_go_eq_bad h
      refine ⟨c :: cs, rfl, ?_, List.forall_mem_cons.mpr ⟨by omega, hcs⟩⟩
      rw [List.length_cons]
      omega

/-- What is read as no character are bytes beyond ASCII. -/
theorem step_eq_bad {b : UInt8} {t r : Bytes} {len : Nat} {reason : DecodeReason}
    (h : step b t = .bad reason len r) :
    ∃ cs : Bytes, t = cs ++ r ∧ len = 1 + cs.length ∧ ∀ c ∈ b :: cs, 0x80 ≤ c.toNat := by
  simp only [step, UInt8.lt_iff_toNat_lt, ← UInt8.toNat_inj, UInt8.reduceToNat] at h
  split at h
  · cases h
  rename_i hb
  rw [Nat.not_lt] at hb
  split at h
  · cases h
    exact ⟨[], rfl, rfl, List.forall_mem_singleton.mpr hb⟩
  split at h
  · obtain ⟨cs, rfl, rfl, hcs⟩ := stepWide_eq_bad (by decide) h
    exact ⟨cs, rfl, rfl, List.forall_mem_cons.mpr ⟨hb, hcs⟩⟩
  split at h
  · obtain ⟨cs, rfl, rfl, hcs⟩ := stepWide_eq_bad (by split <;> decide) h
    exact ⟨cs, rfl, rfl, List.forall_mem_cons.mpr ⟨hb, hcs⟩⟩
  split at h
  · obtain ⟨cs, rfl, rfl, hcs⟩ := stepWide_eq_bad (by split <;> decide) h
    exact ⟨cs, rfl, rfl, List.forall_mem_cons.mpr ⟨hb, hcs⟩⟩
  · cases h
    exact ⟨[], rfl, rfl, List.forall_mem_singleton.mpr hb⟩

/-! ## More bytes behind them -/

/-- The second step reads the same with more bytes behind it. -/
def Step.Extends (x : Bytes) : Step → Step → Prop
  | char n r, s => s = .char n (r ++ x)
  | bad _ length r, s => ∃ reason, s = .bad reason length (r ++ x)

variable {a : UInt8} {x : Bytes}

/-- A byte of ASCII goes on with no character. -/
theorem isContinuation_of_ascii (ha : a.toNat < 0x80) : isContinuation a = false := by
  simp only [isContinuation, UInt8.le_iff_toNat_le, UInt8.reduceToNat, Bool.and_eq_false_iff,
    decide_eq_false_iff_not]
  omega

theorem extends_go (ha : a.toNat < 0x80) (n count k : Nat) (t : Bytes) :
    (stepWide.go n count k t).Extends (a :: x) (stepWide.go n count k (t ++ a :: x)) := by
  induction k generalizing n count t with
  | zero => rfl
  | succ k ih =>
    cases t with
    | nil =>
      rw [List.nil_append, stepWide.go, stepWide.go, isContinuation_of_ascii ha]
      exact ⟨_, rfl⟩
    | cons c t =>
      rw [List.cons_append, stepWide.go, stepWide.go]
      split
      · exact ih _ _ t
      · exact ⟨_, rfl⟩

theorem extends_stepWide (ha : a.toNat < 0x80) {low : UInt8} (hlow : 0x80 ≤ low.toNat) (n : Nat)
    (high : UInt8) (more : Nat) (t : Bytes) :
    (stepWide n low high more t).Extends (a :: x) (stepWide n low high more (t ++ a :: x)) := by
  cases t with
  | nil =>
    rw [List.nil_append, stepWide, stepWide, if_pos]
    · exact ⟨_, rfl⟩
    · rw [Bool.or_eq_true, decide_eq_true_eq, UInt8.lt_iff_toNat_lt]
      exact .inl (by omega)
  | cons c t =>
    rw [List.cons_append, stepWide, stepWide]
    split
    · exact ⟨_, rfl⟩
    · exact extends_go ha _ _ _ t

theorem extends_step (ha : a.toNat < 0x80) (b : UInt8) (t : Bytes) :
    (step b t).Extends (a :: x) (step b (t ++ a :: x)) := by
  unfold step
  split
  · rfl
  split
  · exact ⟨_, rfl⟩
  split
  · exact extends_stepWide ha (by decide) _ _ _ t
  split
  · exact extends_stepWide ha (by split <;> decide) _ _ _ t
  split
  · exact extends_stepWide ha (by split <;> decide) _ _ _ t
  · exact ⟨_, rfl⟩

end Bytes

/-! ## Texts -/

theorem CodePoint.val_ofNat {n : Nat} (h : n < 0xD800 ∨ 0xE000 ≤ n) (h' : n < 0x110000) :
    ∃ c : Char, CodePoint.ofNat n = .scalar c ∧ c.toNat = n := by
  have hvalid : n.isValidChar := by
    rcases h with h | h
    · exact .inl h
    · exact .inr ⟨by omega, h'⟩
  have hnone : ¬ (firstSurrogate ≤ n ∧ n < firstSurrogate + 2048) := by
    simp only [firstSurrogate]
    omega
  rw [ofNat, dif_neg hnone, if_pos hvalid]
  refine ⟨_, rfl, ?_⟩
  rw [Char.ofNat, dif_pos hvalid]
  rfl

namespace Bytes

/-- What was read from bytes is a text that is written in just these. -/
theorem decodeFrom_eq_ok {bs : Bytes} {t : Text} {position : Nat}
    (h : decodeFrom position bs = .ok t) : t.isEncodable = true ∧ t.bytes = bs := by
  fun_induction decodeFrom position bs generalizing t with
  | case1 =>
    cases h
    exact ⟨rfl, rfl⟩
  | case2 position b bs n r hstep _ ih =>
    cases hrest : decodeFrom (position + (Text.bytesOf n).length) r with
    | error fault =>
      rw [hrest] at h
      cases h
    | ok u =>
      rw [hrest] at h
      cases h
      obtain ⟨hu, hbytes⟩ := ih hrest
      obtain ⟨hcons, hn, hn'⟩ := step_eq_char hstep
      obtain ⟨c, hc, hval⟩ := CodePoint.val_ofNat hn hn'
      rw [hc]
      refine ⟨hu, ?_⟩
      rw [Text.bytes, List.flatMap_cons, hcons, ← hbytes]
      show Text.bytesOf c.toNat ++ _ = _
      rw [hval]
      rfl
  | case3 => cases h

/-- Reading undoes writing, and nothing else is read. -/
theorem decode_eq_ok_iff {bs : Bytes} {t : Text} : bs.decode = .ok t ↔ t.encode = .ok bs := by
  rw [Text.encode_eq_ok_iff]
  constructor
  · intro h
    obtain ⟨hencodable, hbytes⟩ := decodeFrom_eq_ok h
    exact ⟨hencodable, hbytes.symm⟩
  · rintro ⟨hencodable, rfl⟩
    exact decode_bytes hencodable

end Bytes

/-! ## Paths -/

namespace Path

theorem bytes_append (p q : Text) : bytes (p ++ q) = bytes p ++ bytes q := by
  rw [bytes, bytes, bytes, List.flatMap_append]

theorem byte?_ofByte {b : UInt8} (h : 0x80 ≤ b.toNat) : byte? (ofByte b) = some b := by
  have hb := b.toNat_lt
  have hin : CodePoint.firstSurrogate ≤ 0xDC00 + b.toNat
      ∧ 0xDC00 + b.toNat < CodePoint.firstSurrogate + 2048 := by
    simp only [CodePoint.firstSurrogate]
    omega
  have hval : 0xDC00 + b.toNat - CodePoint.firstSurrogate - 0x400 = b.toNat := by
    simp only [CodePoint.firstSurrogate]
    omega
  rw [ofByte, CodePoint.ofNat, dif_pos hin, byte?]
  dsimp only
  rw [hval, if_pos, UInt8.ofNat_toNat]
  simp only [CodePoint.firstSurrogate]
  omega

theorem bytes_map_ofByte {bs : Bytes} (h : ∀ b ∈ bs, 0x80 ≤ b.toNat) :
    bytes (bs.map ofByte) = bs := by
  induction bs with
  | nil => rfl
  | cons b bs ih =>
    rw [List.map_cons, bytes, List.flatMap_cons, byte?_ofByte (h b (List.mem_cons_self ..))]
    exact congrArg (b :: ·) (ih fun c hc => h c (List.mem_cons_of_mem _ hc))

/-- By induction along the steps of reading. -/
theorem bytes_ofBytes (bs : Bytes) : bytes (ofBytes bs) = bs := by
  fun_induction ofBytes bs with
  | case1 => rfl
  | case2 b t n r h _ ih =>
    obtain ⟨hbytes, hn, hn'⟩ := Bytes.step_eq_char h
    obtain ⟨c, hc, hval⟩ := CodePoint.val_ofNat hn hn'
    rw [hc, bytes, List.flatMap_cons, hbytes]
    show Text.bytesOf c.toNat ++ bytes (ofBytes r) = _
    rw [hval, ih]
  | case3 b t reason len r h _ ih =>
    obtain ⟨cs, rfl, rfl, hcs⟩ := Bytes.step_eq_bad h
    have htake : (b :: (cs ++ r)).take (1 + cs.length) = b :: cs := by
      rw [Nat.add_comm, List.take_succ_cons, List.take_left]
    rw [htake, bytes_append, bytes_map_ofByte hcs, ih]
    rfl

theorem bytes_of_isEncodable {p : Text} (h : p.isEncodable = true) : bytes p = p.bytes := by
  induction p with
  | nil => rfl
  | cons c p ih =>
    rw [Text.isEncodable, List.all_cons, Bool.and_eq_true] at h
    rw [bytes, Text.bytes, List.flatMap_cons, List.flatMap_cons]
    cases c with
    | scalar c => exact congrArg (Text.bytesOf c.toNat ++ ·) (ih h.2)
    | surrogate n => cases h.1

/-- In a text without lone surrogates none stands for a byte. -/
theorem any_byte?_of_isEncodable {p : Text} (h : p.isEncodable = true) :
    (p.any fun c => (byte? c).isSome) = false := by
  rw [Text.isEncodable, List.all_eq_true] at h
  rw [List.any_eq_false]
  intro c hc
  cases c with
  | scalar c => simp [byte?]
  | surrogate n => cases h _ hc

/-- A path without lone surrogates is read back as it was written. -/
theorem onDisk_of_isEncodable {p : Text} (h : p.isEncodable = true) : onDisk p = p := by
  rw [onDisk, any_byte?_of_isEncodable h, if_neg (by decide)]

/-- What is read back has the bytes that were written. -/
theorem bytes_onDisk (p : Text) : bytes (onDisk p) = bytes p := by
  rw [onDisk]
  split
  · exact bytes_ofBytes _
  · rfl

/-- What was read back once stays as it is. -/
theorem onDisk_onDisk (p : Text) : onDisk (onDisk p) = onDisk p := by
  by_cases hbyte : (p.any fun c => (byte? c).isSome) = true
  · have hp : onDisk p = ofBytes (bytes p) := by rw [onDisk, if_pos hbyte]
    rw [hp, onDisk, bytes_ofBytes]
    split <;> rfl
  · have hp : onDisk p = p := by rw [onDisk, if_neg hbyte]
    rw [hp, hp]

/-- Behind one and the same path, texts that are different are so on the disk. -/
theorem onDisk_append_injective {p t u : Text} (ht : t.isEncodable = true)
    (hu : u.isEncodable = true) (h : onDisk (p ++ t) = onDisk (p ++ u)) : t = u := by
  have hplain : ∀ {v : Text}, v.isEncodable = true →
      ((p ++ v).any fun c => (byte? c).isSome) = p.any fun c => (byte? c).isSome := by
    intro v hv
    rw [List.any_append, any_byte?_of_isEncodable hv, Bool.or_false]
  rw [onDisk, onDisk, hplain ht, hplain hu] at h
  split at h
  · have hbytes := congrArg bytes h
    rw [bytes_ofBytes, bytes_ofBytes, bytes_append, bytes_append, List.append_cancel_left_eq,
      bytes_of_isEncodable ht, bytes_of_isEncodable hu] at hbytes
    have hdecode := Bytes.decode_bytes ht
    rw [hbytes, Bytes.decode_bytes hu, Except.ok.injEq] at hdecode
    exact hdecode.symm
  · exact List.append_cancel_left h

/-! ## An extension -/

theorem ofBytes_of_char {b : UInt8} {t r : Bytes} {n : Nat} (h : Bytes.step b t = .char n r) :
    ofBytes (b :: t) = CodePoint.ofNat n :: ofBytes r := by
  rw [ofBytes]
  split
  · rename_i h'
    cases h.symm.trans h'
    rfl
  · rename_i h'
    cases h.symm.trans h'

theorem ofBytes_of_bad {b : UInt8} {t r : Bytes} {reason : DecodeReason} {len : Nat}
    (h : Bytes.step b t = .bad reason len r) :
    ofBytes (b :: t) = ((b :: t).take len).map ofByte ++ ofBytes r := by
  rw [ofBytes]
  split
  · rename_i h'
    cases h.symm.trans h'
  · rename_i h'
    cases h.symm.trans h'
    rfl

/-- From a byte of ASCII on the reading begins anew. By induction along its steps. -/
theorem ofBytes_append {a : UInt8} (ha : a.toNat < 0x80) (bs x : Bytes) :
    ofBytes (bs ++ a :: x) = ofBytes bs ++ ofBytes (a :: x) := by
  fun_induction ofBytes bs with
  | case1 => rfl
  | case2 b t n r h _ ih =>
    have hstep := Bytes.extends_step (x := x) ha b t
    rw [h] at hstep
    rw [List.cons_append, ofBytes_of_char hstep, ih]
    rfl
  | case3 b t reason len r h _ ih =>
    have hstep := Bytes.extends_step (x := x) ha b t
    rw [h] at hstep
    obtain ⟨reason', hstep⟩ := hstep
    obtain ⟨cs, rfl, rfl, _⟩ := Bytes.step_eq_bad h
    have htake : (b :: (cs ++ r ++ a :: x)).take (1 + cs.length)
        = (b :: (cs ++ r)).take (1 + cs.length) := by
      rw [Nat.add_comm, List.take_succ_cons, List.take_succ_cons, List.append_assoc,
        List.take_left, List.take_left]
    rw [List.cons_append, ofBytes_of_bad hstep, ih, htake, List.append_assoc]

theorem ofBytes_bytes {p : Text} (h : p.isEncodable = true) : ofBytes (bytes p) = p := by
  induction p with
  | nil => rw [bytes, List.flatMap_nil, ofBytes]
  | cons c p ih =>
    rw [Text.isEncodable, List.all_cons, Bool.and_eq_true] at h
    cases c with
    | surrogate n => cases h.1
    | scalar c =>
      obtain ⟨hvalid, hlt⟩ := CodePoint.val_of_isScalar (c := .scalar c) rfl
      obtain ⟨b, t, hbytes, hstep⟩ := Bytes.step_bytesOf hvalid hlt (bytes p)
      have hcons : bytes (.scalar c :: p) = b :: (t ++ bytes p) := by
        rw [bytes, List.flatMap_cons]
        exact congrArg (· ++ bytes p) hbytes
      rw [hcons, ofBytes_of_char hstep, ih h.2, CodePoint.ofNat_val]

/-- Before an extension a text is read back as it is by itself. -/
theorem onDisk_append_point {e : Text} (he : e.isEncodable = true) (t : Text) :
    onDisk (t ++ .scalar '.' :: e) = onDisk t ++ .scalar '.' :: e := by
  have hpoint : Text.isEncodable (.scalar '.' :: e) = true := by
    rw [Text.isEncodable, List.all_cons]
    exact he
  rw [onDisk, onDisk, List.any_append, any_byte?_of_isEncodable hpoint, Bool.or_false]
  split
  · have hbytes : bytes (.scalar '.' :: e) = 46 :: bytes e := rfl
    rw [bytes_append, hbytes, ofBytes_append (by decide), ← hbytes, ofBytes_bytes hpoint]
  · rfl

end Path

end GalleryScan
