import GalleryScan.Proofs.Json.RoundTrip
import GalleryScan.Proofs.Number.Shortest

/-!
# Numbers with a point read back

The text of a number with a point holds the digits that the search for the shortest ones has found,
wherever the point stands among them and whatever exponent they carry; so its reader makes the same
number of it:

> `ReadsBack x`
-/

set_option autoImplicit false

namespace GalleryScan

namespace Json

/-! ## The value of digits -/

theorem digitsValue_foldl (n : Nat) (ds : Text) :
    ds.foldl (fun n c => 10 * n + (c.val - 48)) n = n * 10 ^ ds.length + digitsValue ds := by
  induction ds generalizing n with
  | nil => rw [List.foldl_nil, List.length_nil, pow_zero, mul_one]; rfl
  | cons d ds ih =>
    rw [digitsValue, List.foldl_cons, List.foldl_cons, ih, ih (10 * 0 + _), List.length_cons,
      pow_succ]
    ring

theorem digitsValue_append (ds fs : Text) :
    digitsValue (ds ++ fs) = digitsValue ds * 10 ^ fs.length + digitsValue fs := by
  rw [digitsValue, List.foldl_append]
  exact digitsValue_foldl _ fs

theorem digitsValue_zeros (k : Nat) : digitsValue (List.replicate k (.scalar '0')) = 0 := by
  induction k with
  | zero => rfl
  | succ k ih => exact ih

/-! ## Reading the parts -/

/-- Digits and nothing else, at least one. -/
structure IsDigits (ds : Text) : Prop where
  nonempty : ds ≠ []
  all : ∀ c ∈ ds, c.isAsciiDigit = true

/-- Whole digits of a number: a zero stands alone. -/
structure IsWhole (ds : Text) : Prop extends IsDigits ds where
  head : ds = [.scalar '0'] ∨ ds.head? ≠ some (.scalar '0')

variable {ds fs xs rest : Text}

theorem IsDigits.takeWhile (h : IsDigits ds)
    (hrest : ∀ c, rest.head? = some c → c.isAsciiDigit = false) :
    (ds ++ rest).takeWhile CodePoint.isAsciiDigit = ds
      ∧ (ds ++ rest).dropWhile CodePoint.isAsciiDigit = rest := by
  obtain ⟨htake, hdrop⟩ := takeWhile_append_closing hrest ds
  rw [htake, hdrop, List.takeWhile_eq_self_iff.mpr h.all, List.dropWhile_eq_nil_iff.mpr h.all]
  exact ⟨rfl, rfl⟩

theorem IsWhole.wholeDigits (h : IsWhole ds)
    (hrest : ∀ c, rest.head? = some c → c.isAsciiDigit = false) :
    wholeDigits (ds ++ rest) = ds := by
  rcases h.head with rfl | hhead
  · rfl
  · cases ds with
    | nil => exact absurd rfl h.nonempty
    | cons c ds =>
      have hc : c ≠ .scalar '0' := fun hc => hhead (congrArg some hc)
      rw [List.cons_append, Json.wholeDigits, if_neg hc, ← List.cons_append,
        (h.toIsDigits.takeWhile hrest).1]

theorem readFraction_point (h : IsDigits fs)
    (hrest : ∀ c, rest.head? = some c → c.isAsciiDigit = false) :
    readFraction (.scalar '.' :: (fs ++ rest)) = (some fs, rest) := by
  obtain ⟨htake, hdrop⟩ := h.takeWhile hrest
  rw [readFraction, htake, hdrop, if_neg h.nonempty]

theorem readExponent_signed (h : IsDigits xs) (negative : Bool) :
    readExponent (.scalar 'e' :: .scalar (if negative then '-' else '+') :: xs)
      = (some (if negative then -(digitsValue xs : Int) else digitsValue xs), []) := by
  obtain ⟨htake, hdrop⟩ : xs.takeWhile CodePoint.isAsciiDigit = xs
      ∧ xs.dropWhile CodePoint.isAsciiDigit = [] :=
    ⟨List.takeWhile_eq_self_iff.mpr h.all, List.dropWhile_eq_nil_iff.mpr h.all⟩
  cases negative with
  | true =>
    have hsigned : readSigned (.scalar '-' :: xs) = some (-(digitsValue xs : Int), []) := by
      show unsigned true xs = _
      rw [unsigned, htake, hdrop, if_neg h.nonempty]
      rfl
    rw [readExponent, if_pos (.inl rfl), if_pos rfl, hsigned]
    rfl
  | false =>
    have hsigned : readSigned (.scalar '+' :: xs) = some ((digitsValue xs : Int), []) := by
      show unsigned false xs = _
      rw [unsigned, htake, hdrop, if_neg h.nonempty]
      rfl
    rw [readExponent, if_pos (.inl rfl), if_neg Bool.false_ne_true, hsigned]
    rfl

/-- Digits with a point among them. -/
theorem number?_point (hds : IsWhole ds) (hfs : IsDigits fs) (negative : Bool) :
    number? negative (ds ++ .scalar '.' :: fs) = .ok (some
      (.real (.ofDecimal negative (digitsValue (ds ++ fs)) (-fs.length)), [])) := by
  have hwhole : wholeDigits (ds ++ .scalar '.' :: fs) = ds := by
    apply hds.wholeDigits
    rintro c hc
    cases hc
    rfl
  have hfraction : readFraction (.scalar '.' :: fs) = (some fs, []) := by
    have hend : ∀ c, ([] : Text).head? = some c → c.isAsciiDigit = false := nofun
    have hread := readFraction_point hfs hend
    rwa [List.append_nil] at hread
  rw [number?, hwhole, if_neg hds.nonempty, List.drop_left, readNumber, hfraction]
  dsimp only [readExponent, Option.getD]
  rw [Int.zero_sub]
  rfl

/-- Digits with an exponent, and a point behind the first where there are more. -/
theorem number?_exponent (hds : IsWhole ds) (hfs : fs = [] ∨ IsDigits fs) (hxs : IsDigits xs)
    (negative below : Bool) :
    number? negative (ds ++ ((if fs = [] then [] else .scalar '.' :: fs)
        ++ .scalar 'e' :: .scalar (if below then '-' else '+') :: xs))
      = .ok (some (.real (.ofDecimal negative (digitsValue (ds ++ fs))
        ((if below then -(digitsValue xs : Int) else digitsValue xs) - fs.length)), [])) := by
  obtain ⟨tail, htail⟩ : ∃ tail : Text,
      .scalar 'e' :: .scalar (if below then '-' else '+') :: xs = tail := ⟨_, rfl⟩
  have hclosed : ∀ c, tail.head? = some c → c.isAsciiDigit = false := by
    rw [← htail]
    rintro c hc
    cases hc
    rfl
  have hexponent := readExponent_signed hxs below
  rw [htail] at hexponent ⊢
  rcases hfs with rfl | hfs
  · have hfraction : readFraction tail = (none, tail) := by
      apply readFraction_other
      rw [← htail]
      exact head?_ne (by decide)
    rw [if_pos rfl, List.nil_append, number?, hds.wholeDigits hclosed, if_neg hds.nonempty,
      List.drop_left, readNumber, hfraction]
    dsimp only
    rw [hexponent]
    rfl
  · have hpoint : ∀ c, (.scalar '.' :: (fs ++ tail)).head? = some c → c.isAsciiDigit = false := by
      rintro c hc
      cases hc
      rfl
    rw [if_neg hfs.nonempty, List.cons_append, number?, hds.wholeDigits hpoint,
      if_neg hds.nonempty, List.drop_left, readNumber, readFraction_point hfs hclosed]
    dsimp only
    rw [hexponent]
    rfl

/-! ## The digits that are written -/

/-- The first digits of a decimal with the power of ten of the first one, if the decimal is rounded
to the number. -/
structure Leading (m : Nat) (e : Int) (cs : List Char) (power : Int) : Prop where
  nonempty : cs ≠ []
  digits : ∀ c ∈ cs, c.isDigit = true
  head : cs.head? ≠ some '0'
  covers : Double.Covers m e
    (digitsValue (cs.map .scalar) * 10 ^ (power + 1 - cs.length))

/-- What is taken off the end of digits is zeros. -/
theorem strip_zeros (cs : List Char) :
    ∃ k, cs = (cs.reverse.dropWhile (· = '0')).reverse ++ List.replicate k '0' := by
  refine ⟨(cs.reverse.takeWhile (· = '0')).length, ?_⟩
  have hzeros : cs.reverse.takeWhile (· = '0')
      = List.replicate (cs.reverse.takeWhile (· = '0')).length '0' := by
    refine List.eq_replicate_iff.mpr ⟨rfl, ?_⟩
    intro c hc
    simpa using List.mem_takeWhile_imp hc
  have hsplit := congrArg List.reverse
    (List.takeWhile_append_dropWhile (p := (· = '0')) (l := cs.reverse))
  rw [List.reverse_append, List.reverse_reverse] at hsplit
  nth_rewrite 1 [← hsplit]
  nth_rewrite 1 [hzeros]
  rw [List.reverse_replicate]

theorem leading_of_canonical {m : Nat} {e : Int} (hm : 0 < m)
    (hcanonical : Double.Canonical m e) :
    Leading m e (NumberFormat.leading m e).1 (NumberFormat.leading m e).2 := by
  have hpos := Double.shortest_pos hm hcanonical
  have hcovers := Double.shortest_covers hm hcanonical
  rw [NumberFormat.leading]
  generalize Double.shortest m e = decimal at hpos hcovers ⊢
  obtain ⟨d, ten⟩ := decimal
  dsimp only at hpos hcovers ⊢
  obtain ⟨k, hsplit⟩ := strip_zeros (Nat.toDigits 10 d)
  generalize ((Nat.toDigits 10 d).reverse.dropWhile (· = '0')).reverse = cs at hsplit ⊢
  -- Without its last zeros the decimal is the same with a greater power of ten.
  have hvalue : d = digitsValue (cs.map .scalar) * 10 ^ k := by
    have hdigits := digitsValue_ofNat d
    rw [Text.ofNat, hsplit, List.map_append, List.map_replicate, digitsValue_append,
      digitsValue_zeros, List.length_replicate, Nat.add_zero] at hdigits
    exact hdigits.symm
  have hnonempty : cs ≠ [] := by
    rintro rfl
    rw [hvalue] at hpos
    exact absurd hpos (by simp [digitsValue])
  refine ⟨hnonempty, ?_, ?_, ?_⟩
  · intro c hc
    apply Nat.isDigit_of_mem_toDigits (b := 10) (n := d) (by decide) (by decide)
    rw [hsplit]
    exact List.mem_append_left _ hc
  · have hhead := head_toDigits hpos
    rwa [hsplit, List.head?_append_of_ne_nil _ hnonempty] at hhead
  · have hlength : ten + (Nat.toDigits 10 d).length - 1 + 1 - cs.length = ten + k := by
      rw [hsplit, List.length_append, List.length_replicate]
      push_cast
      ring
    have hvalue' : (d : ℚ) = digitsValue (cs.map .scalar) * 10 ^ k := by exact_mod_cast hvalue
    rw [hlength, zpow_add₀ (by norm_num), zpow_natCast]
    convert hcovers using 1
    rw [hvalue']
    ring

variable {m : Nat} {e power : Int} {cs : List Char}

theorem isDigits_map (hnonempty : cs ≠ []) (h : ∀ c ∈ cs, c.isDigit = true) :
    IsDigits (cs.map .scalar) := by
  refine ⟨mt List.map_eq_nil_iff.mp hnonempty, ?_⟩
  intro c hc
  obtain ⟨d, hd, rfl⟩ := List.mem_map.mp hc
  exact isAsciiDigit_scalar (h d hd)

theorem isWhole_map {d : Char} (hd : d ≠ '0') (h : ∀ c ∈ d :: cs, c.isDigit = true) :
    IsWhole ((d :: cs).map .scalar) := by
  refine ⟨isDigits_map (List.cons_ne_nil d cs) h, .inr ?_⟩
  intro hhead
  cases hhead
  exact hd rfl

theorem isWhole_zero : IsWhole [.scalar '0'] := by
  refine ⟨⟨List.cons_ne_nil _ _, ?_⟩, .inl rfl⟩
  intro c hc
  rw [List.mem_singleton.mp hc]
  rfl

theorem isDigit_of_mem_zeros {k : Nat} : ∀ c ∈ List.replicate k '0', c.isDigit = true := by
  intro c hc
  rw [List.eq_of_mem_replicate hc]
  rfl

/-- Digits that stand for the same number are read as it. -/
theorem Leading.ofDecimal (h : Leading m e cs power) (hm : 0 < m)
    (hcanonical : Double.Canonical m e) {digits : Nat} {exponent : Int}
    (hsame : (digits : ℚ) * 10 ^ exponent
      = digitsValue (cs.map .scalar) * 10 ^ (power + 1 - cs.length)) (negative : Bool) :
    Double.ofDecimal negative digits exponent = .finite negative m e hcanonical := by
  apply Double.ofDecimal_of_covers hm hcanonical
  rw [hsame]
  exact h.covers

/-- A number less than one that is written without an exponent. -/
theorem Leading.read_small (h : Leading m e cs power) (hm : 0 < m)
    (hcanonical : Double.Canonical m e) (hpower : power < 0) (negative : Bool) :
    number? negative ((NumberFormat.positional cs power).map .scalar)
      = .ok (some (.real (.finite negative m e hcanonical), [])) := by
  obtain ⟨k, hk⟩ : ∃ k, k = (-power - 1).toNat := ⟨_, rfl⟩
  have htext : (NumberFormat.positional cs power).map CodePoint.scalar
      = [.scalar '0'] ++ .scalar '.' :: (List.replicate k '0' ++ cs).map .scalar := by
    rw [NumberFormat.positional, if_pos hpower, ← hk, List.append_assoc]
    rfl
  have hfraction : IsDigits ((List.replicate k '0' ++ cs).map .scalar) := by
    refine isDigits_map (List.append_ne_nil_of_right_ne_nil _ h.nonempty) ?_
    intro c hc
    rcases List.mem_append.mp hc with hc | hc
    · exact isDigit_of_mem_zeros c hc
    · exact h.digits c hc
  rw [htext, number?_point isWhole_zero hfraction, h.ofDecimal hm hcanonical]
  have hlength : -(((List.replicate k '0' ++ cs).map CodePoint.scalar).length : Int)
      = power + 1 - cs.length := by
    rw [List.length_map, List.length_append, List.length_replicate]
    omega
  -- The zeros in front stand for nothing but make the fraction as long as the power asks.
  have hdigits : digitsValue ([.scalar '0'] ++ (List.replicate k '0' ++ cs).map .scalar)
      = digitsValue (cs.map .scalar) := by
    rw [List.map_append, List.map_replicate, digitsValue_append, digitsValue_append,
      digitsValue_zeros]
    show 0 * _ + (0 * _ + _) = _
    rw [Nat.zero_mul, Nat.zero_mul, Nat.zero_add, Nat.zero_add]
  rw [hlength, hdigits]

/-- A number that is written without an exponent, its last digit before the point. -/
theorem Leading.read_padded (h : Leading m e cs power) (hm : 0 < m)
    (hcanonical : Double.Canonical m e) {k : Nat} (hk : (cs.length + k : Int) = power + 1)
    (negative : Bool) :
    number? negative ((cs ++ List.replicate k '0').map .scalar ++ .scalar '.' :: [.scalar '0'])
      = .ok (some (.real (.finite negative m e hcanonical), [])) := by
  obtain ⟨d, ds, rfl⟩ := List.exists_cons_of_ne_nil h.nonempty
  have hd : d ≠ '0' := fun hd => h.head (congrArg some hd)
  have hwhole : IsWhole ((d :: ds ++ List.replicate k '0').map .scalar) := by
    refine isWhole_map hd ?_
    intro c hc
    rcases List.mem_append.mp (show c ∈ (d :: ds) ++ List.replicate k '0' from hc) with hc | hc
    · exact h.digits c hc
    · exact isDigit_of_mem_zeros c hc
  rw [number?_point hwhole isWhole_zero.toIsDigits, h.ofDecimal hm hcanonical]
  have hpower : power + 1 - (d :: ds).length = k := by omega
  rw [hpower, List.map_append, List.map_replicate, digitsValue_append, digitsValue_append,
    digitsValue_zeros, List.length_replicate, zpow_natCast]
  show ((_ * 10 + 0 : Nat) : ℚ) * 10 ^ (-1 : Int) = _
  push_cast
  rw [zpow_neg_one]
  ring

/-- A number that is written without an exponent, the point among its digits. -/
theorem Leading.read_pointed (h : Leading m e cs power) (hm : 0 < m)
    (hcanonical : Double.Canonical m e) {n : Nat} (hn : (n : Int) = power) (hlt : n + 1 < cs.length)
    (negative : Bool) :
    number? negative ((cs.take (n + 1)).map .scalar ++ .scalar '.' :: (cs.drop (n + 1)).map .scalar)
      = .ok (some (.real (.finite negative m e hcanonical), [])) := by
  have hfraction : IsDigits ((cs.drop (n + 1)).map .scalar) := by
    refine isDigits_map (mt List.drop_eq_nil_iff.mp (by omega)) ?_
    intro c hc
    exact h.digits c (List.mem_of_mem_drop hc)
  have hwhole : IsWhole ((cs.take (n + 1)).map .scalar) := by
    obtain ⟨d, ds, rfl⟩ := List.exists_cons_of_ne_nil h.nonempty
    rw [List.take_succ_cons]
    refine isWhole_map (fun hd => h.head (congrArg some hd)) ?_
    intro c hc
    rw [← List.take_succ_cons] at hc
    exact h.digits c (List.mem_of_mem_take hc)
  rw [number?_point hwhole hfraction, h.ofDecimal hm hcanonical]
  rw [← List.map_append, List.take_append_drop, List.length_map, List.length_drop]
  congr 2
  omega

/-- A number that is written without an exponent. -/
theorem Leading.read_positional (h : Leading m e cs power) (hm : 0 < m)
    (hcanonical : Double.Canonical m e) (negative : Bool) :
    number? negative ((NumberFormat.positional cs power).map .scalar)
      = .ok (some (.real (.finite negative m e hcanonical), [])) := by
  by_cases hpower : power < 0
  · exact h.read_small hm hcanonical hpower negative
  rw [NumberFormat.positional, if_neg hpower]
  dsimp only
  rw [List.map_append, List.map_cons]
  by_cases hlt : power.toNat + 1 < cs.length
  · have hpad : power.toNat + 1 - cs.length = 0 := by omega
    rw [hpad, if_neg (mt List.drop_eq_nil_iff.mp (by omega)), List.replicate_zero, List.append_nil]
    exact h.read_pointed hm hcanonical (by omega) hlt negative
  · rw [if_pos (List.drop_eq_nil_iff.mpr (by omega)), List.take_of_length_le (by omega)]
    exact h.read_padded hm hcanonical (by omega) negative

theorem map_scientific (width : Nat) (d : Char) (ds : List Char) (power : Int) :
    (NumberFormat.scientific width (d :: ds) power).map CodePoint.scalar
      = [.scalar d] ++ ((if ds.map CodePoint.scalar = [] then []
          else .scalar '.' :: ds.map .scalar)
        ++ .scalar 'e' :: .scalar (if power < 0 then '-' else '+')
          :: (List.replicate (width - (Nat.toDigits 10 power.natAbs).length) '0'
            ++ Nat.toDigits 10 power.natAbs).map .scalar) := by
  cases ds with
  | nil => rfl
  | cons d' ds =>
    rw [if_neg (mt List.map_eq_nil_iff.mp (List.cons_ne_nil d' ds)),
      NumberFormat.scientific.eq_def]
    dsimp only
    rw [List.map_append]
    rfl

/-- Zeros before digits leave the number the same. -/
theorem padded_digits (k n : Nat) :
    IsDigits ((List.replicate k '0' ++ Nat.toDigits 10 n).map .scalar)
      ∧ digitsValue ((List.replicate k '0' ++ Nat.toDigits 10 n).map .scalar) = n := by
  constructor
  · refine isDigits_map (List.append_ne_nil_of_right_ne_nil _ Nat.toDigits_ne_nil) ?_
    intro c hc
    rcases List.mem_append.mp hc with hc | hc
    · exact isDigit_of_mem_zeros c hc
    · exact Nat.isDigit_of_mem_toDigits (by decide) (by decide) hc
  · rw [List.map_append, List.map_replicate, digitsValue_append, digitsValue_zeros, Nat.zero_mul,
      Nat.zero_add]
    exact digitsValue_ofNat _

/-- A number that is written with an exponent. -/
theorem Leading.read_scientific (h : Leading m e cs power) (hm : 0 < m)
    (hcanonical : Double.Canonical m e) (width : Nat) (negative : Bool) :
    number? negative ((NumberFormat.scientific width cs power).map .scalar)
      = .ok (some (.real (.finite negative m e hcanonical), [])) := by
  obtain ⟨d, ds, rfl⟩ := List.exists_cons_of_ne_nil h.nonempty
  obtain ⟨hexponent, hvalue⟩ := padded_digits (width - (Nat.toDigits 10 power.natAbs).length)
    power.natAbs
  have hwhole : IsWhole [.scalar d] := by
    have hdigit : ∀ c ∈ [d], c.isDigit = true := by
      intro c hc
      rw [List.mem_singleton.mp hc]
      exact h.digits d (List.mem_cons_self ..)
    exact isWhole_map (fun hd => h.head (congrArg some hd)) hdigit
  have hfraction : ds.map CodePoint.scalar = [] ∨ IsDigits (ds.map .scalar) := by
    by_cases hds : ds = []
    · exact .inl (List.map_eq_nil_iff.mpr hds)
    · exact .inr (isDigits_map hds fun c hc => h.digits c (List.mem_cons_of_mem d hc))
  have hread := number?_exponent hwhole hfraction hexponent negative (decide (power < 0))
  simp only [decide_eq_true_eq] at hread
  rw [map_scientific, hread, hvalue, h.ofDecimal hm hcanonical]
  rw [List.singleton_append, ← List.map_cons, List.length_map, List.length_cons]
  congr 2
  split <;> omega

/-! ## Reading back -/

theorem number?_digits (f : NumberFormat) (hcanonical : Double.Canonical m e) (negative : Bool) :
    number? negative ((f.digits m e).map .scalar)
      = .ok (some (.real (.finite negative m e hcanonical), [])) := by
  rw [NumberFormat.digits]
  by_cases hzero : m = 0
  · subst hzero
    have he : e = -1074 := hcanonical.2.2.2.resolve_left (by decide)
    subst he
    rw [if_pos rfl]
    have hread := number?_point isWhole_zero isWhole_zero.toIsDigits negative
    exact hread
  · have hm : 0 < m := Nat.pos_of_ne_zero hzero
    have hleading := leading_of_canonical hm hcanonical
    rw [if_neg hzero]
    dsimp only
    split
    · exact hleading.read_positional hm hcanonical negative
    · exact hleading.read_scientific hm hcanonical _ negative

theorem head_of_number? {negative : Bool} {t : Text} {x : Json × Text}
    (h : number? negative t = .ok (some x)) : ∃ c u, t = c :: u ∧ c.isAsciiDigit = true := by
  cases t with
  | nil => cases h
  | cons c u =>
    refine ⟨c, u, rfl, ?_⟩
    by_contra hc
    rw [Bool.not_eq_true] at hc
    have hzero : c ≠ .scalar '0' := by
      rintro rfl
      cases hc
    have hnone : wholeDigits (c :: u) = [] := by
      rw [wholeDigits, if_neg hzero, List.takeWhile_cons, hc]
      rfl
    rw [number?, if_pos hnone] at h
    cases h

theorem readScalar_signed {negative : Bool} {t : Text} {x : Json}
    (h : number? negative t = .ok (some (x, []))) :
    readScalar (NumberFormat.sign negative ++ t) = .ok (x, []) := by
  obtain ⟨c, u, rfl, hc⟩ := head_of_number? h
  cases negative with
  | true =>
    show readScalar (.scalar '-' :: c :: u) = _
    rw [readScalar_minus (word?_eq_none_of_digit (.inr hc)), h]
    rfl
  | false =>
    have hword : word? (c :: u) = none := by
      cases u with
      | nil => exact word?_single c
      | cons d u => exact word?_eq_none_of_digit (.inl hc)
    have hminus : (c :: u).head? ≠ some (.scalar '-') := by
      apply head?_ne
      rintro rfl
      cases hc
    show readScalar (c :: u) = _
    rw [readScalar_other hword hminus, h]
    rfl

/-- Every number with a point is read back from its text. -/
theorem readsBack (x : Double) : ReadsBack x := by
  have hread : readScalar (NumberFormat.file.write x) = .ok (.real x, []) := by
    cases x with
    | nan => rfl
    | infinity negative => cases negative <;> rfl
    | finite negative m e hcanonical =>
      exact readScalar_signed (number?_digits .file hcanonical negative)
  have htaken := taken_readValue_closed (.inl rfl) hread
  rw [List.append_nil] at htaken
  exact read_of_taken htaken

end Json

end GalleryScan
