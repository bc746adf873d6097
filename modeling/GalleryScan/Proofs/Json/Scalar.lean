import GalleryScan.Json.Writer
import GalleryScan.Proofs.Json.Reading
import Mathlib.Data.List.TakeWhile

/-!
# Numbers and words read back

The reader of numbers and words looks no further than to the sign that ends them, so what it reads
by itself it reads in front of a comma or a line end as well:

> `readScalar t = .ok (x, r) → readScalar (t ++ rest) = .ok (x, r ++ rest)`

With that a value without parts is read back wherever it is written: words by computation, whole
numbers by their digits, numbers with a point by what is said about them.
-/

set_option autoImplicit false

namespace GalleryScan

namespace Json

/-- Nothing follows, or what ends a number and a word. -/
def Closes (rest : Text) : Prop :=
  rest = [] ∨ ∃ c r, rest = c :: r ∧ (c = .scalar ',' ∨ c = .scalar '\n')

variable {rest : Text}

theorem Closes.head {c : CodePoint} (hrest : Closes rest) (h : rest.head? = some c) :
    c = .scalar ',' ∨ c = .scalar '\n' := by
  rcases hrest with rfl | ⟨d, r, rfl, hd⟩
  · cases h
  · cases h
    exact hd

/-! ## Runs of digits -/

theorem takeWhile_append_closing {p : CodePoint → Bool}
    (hp : ∀ c, rest.head? = some c → p c = false) (t : Text) :
    (t ++ rest).takeWhile p = t.takeWhile p
      ∧ (t ++ rest).dropWhile p = t.dropWhile p ++ rest := by
  induction t with
  | nil =>
    cases rest with
    | nil => exact ⟨rfl, rfl⟩
    | cons c r =>
      have hc := hp c rfl
      simp [hc]
  | cons c t ih =>
    cases hc : p c with
    | true =>
      simp only [List.cons_append, List.takeWhile_cons, List.dropWhile_cons, hc, if_true]
      exact ⟨by rw [ih.1], ih.2⟩
    | false => simp [hc]

theorem Closes.digit (hrest : Closes rest) (c : CodePoint) (h : rest.head? = some c) :
    c.isAsciiDigit = false := by
  rcases hrest.head h with rfl | rfl <;> rfl

theorem takeWhile_digits_append (hrest : Closes rest) (t : Text) :
    (t ++ rest).takeWhile CodePoint.isAsciiDigit = t.takeWhile CodePoint.isAsciiDigit :=
  (takeWhile_append_closing hrest.digit t).1

theorem dropWhile_digits_append (hrest : Closes rest) (t : Text) :
    (t ++ rest).dropWhile CodePoint.isAsciiDigit
      = t.dropWhile CodePoint.isAsciiDigit ++ rest :=
  (takeWhile_append_closing hrest.digit t).2

/-! ## Numbers -/

/-- The signs that go on with a number, digits apart. -/
theorem Closes.sign (hrest : Closes rest) {d : CodePoint}
    (hd : d ≠ .scalar ',' ∧ d ≠ .scalar '\n') : rest.head? ≠ some d := fun h =>
  (hrest.head h).elim hd.1 hd.2

theorem head?_ne {c d : CodePoint} {t : Text} (h : c ≠ d) : (c :: t).head? ≠ some d :=
  fun hd => h (Option.some.inj hd)

theorem readFraction_other {t : Text} (h : t.head? ≠ some (.scalar '.')) :
    readFraction t = (none, t) := by
  rw [readFraction.eq_def]
  split
  · exact absurd rfl h
  · rfl

theorem readFraction_append (hrest : Closes rest) (t : Text) :
    readFraction (t ++ rest) = ((readFraction t).1, (readFraction t).2 ++ rest) := by
  cases t with
  | nil =>
    rw [List.nil_append, readFraction_other (hrest.sign (by decide))]
    rfl
  | cons c t =>
    by_cases hc : c = .scalar '.'
    · subst hc
      rw [List.cons_append, readFraction, readFraction]
      rw [takeWhile_digits_append hrest, dropWhile_digits_append hrest]
      split <;> rfl
    · rw [readFraction_other (head?_ne hc), readFraction_other (t := c :: t ++ rest) (head?_ne hc)]

/-- Digits with their sign taken off. -/
def unsigned (negative : Bool) (t : Text) : Option (Int × Text) :=
  let ds := t.takeWhile CodePoint.isAsciiDigit
  if ds = [] then none
  else
    let n : Int := digitsValue ds
    some (if negative then -n else n, t.dropWhile CodePoint.isAsciiDigit)

theorem unsigned_append (hrest : Closes rest) (negative : Bool) (t : Text) :
    unsigned negative (t ++ rest) = (unsigned negative t).map fun x => (x.1, x.2 ++ rest) := by
  unfold unsigned
  rw [takeWhile_digits_append hrest, dropWhile_digits_append hrest]
  dsimp only
  split <;> rfl

theorem readSigned_other {t : Text} (hminus : t.head? ≠ some (.scalar '-'))
    (hplus : t.head? ≠ some (.scalar '+')) : readSigned t = unsigned false t := by
  unfold readSigned
  split
  · rename_i h
    split at h
    · exact absurd rfl hminus
    · exact absurd rfl hplus
    · cases h
      rfl

theorem readSigned_append (hrest : Closes rest) (t : Text) :
    readSigned (t ++ rest) = (readSigned t).map fun x => (x.1, x.2 ++ rest) := by
  cases t with
  | nil =>
    rw [List.nil_append, readSigned_other (hrest.sign (by decide)) (hrest.sign (by decide))]
    exact unsigned_append hrest false []
  | cons c t =>
    by_cases hm : c = .scalar '-'
    · subst hm
      exact unsigned_append hrest true t
    by_cases hp : c = .scalar '+'
    · subst hp
      exact unsigned_append hrest false t
    · rw [readSigned_other (head?_ne hm) (head?_ne hp),
        readSigned_other (t := c :: t ++ rest) (head?_ne hm) (head?_ne hp), unsigned_append hrest]

theorem readExponent_append (hrest : Closes rest) (t : Text) :
    readExponent (t ++ rest) = ((readExponent t).1, (readExponent t).2 ++ rest) := by
  cases t with
  | nil =>
    rcases hrest with rfl | ⟨c, r, rfl, rfl | rfl⟩ <;> rfl
  | cons c t =>
    rw [List.cons_append, readExponent, readExponent, readSigned_append hrest]
    by_cases hc : c = .scalar 'e' ∨ c = .scalar 'E'
    · rw [if_pos hc, if_pos hc]
      cases readSigned t <;> rfl
    · rw [if_neg hc, if_neg hc]
      rfl

theorem readNumber_append (hrest : Closes rest) (negative : Bool) (ds t : Text) :
    readNumber negative ds (t ++ rest)
      = (readNumber negative ds t).map fun x => (x.1, x.2 ++ rest) := by
  unfold readNumber
  rw [readFraction_append hrest]
  obtain ⟨fraction, t₁⟩ := readFraction t
  dsimp only
  rw [readExponent_append hrest]
  obtain ⟨exponent, t₂⟩ := readExponent t₁
  dsimp only
  split
  · split <;> rfl
  · rfl

theorem wholeDigits_append (hrest : Closes rest) (t : Text) :
    wholeDigits (t ++ rest) = wholeDigits t := by
  cases t with
  | nil => rcases hrest with rfl | ⟨c, r, rfl, rfl | rfl⟩ <;> rfl
  | cons c t =>
    rw [List.cons_append, wholeDigits, wholeDigits, ← List.cons_append,
      takeWhile_digits_append hrest]

theorem length_wholeDigits (t : Text) : (wholeDigits t).length ≤ t.length := by
  cases t with
  | nil => exact Nat.le_refl 0
  | cons c t =>
    rw [wholeDigits]
    split
    · exact Nat.succ_le_succ (Nat.zero_le _)
    · exact (List.takeWhile_prefix _).length_le

theorem number?_append (hrest : Closes rest) (negative : Bool) (t : Text) :
    number? negative (t ++ rest)
      = (number? negative t).map fun x => x.map fun x => (x.1, x.2 ++ rest) := by
  unfold number?
  rw [wholeDigits_append hrest, List.drop_append_of_le_length (length_wholeDigits t),
    readNumber_append hrest]
  split
  · rfl
  · cases readNumber negative (wholeDigits t) (t.drop (wholeDigits t).length) <;> rfl

/-! ## Words -/

/-- A word that begins with neither of the closing signs is found in front of them or not at all. -/
theorem isPrefixOf_append (hrest : Closes rest) {w : Text} (hcomma : CodePoint.scalar ',' ∉ w)
    (hline : CodePoint.scalar '\n' ∉ w) (t : Text) : w.isPrefixOf (t ++ rest) = w.isPrefixOf t := by
  induction t generalizing w with
  | nil =>
    cases w with
    | nil => rfl
    | cons d w =>
      rcases hrest with rfl | ⟨c, r, rfl, hc⟩
      · rfl
      · have hne : d ≠ c := by
          rintro rfl
          rcases hc with rfl | rfl
          · exact hcomma (List.mem_cons_self ..)
          · exact hline (List.mem_cons_self ..)
        simp [List.isPrefixOf, hne]
  | cons c t ih =>
    cases w with
    | nil => rfl
    | cons d w =>
      rw [List.cons_append, List.isPrefixOf, List.isPrefixOf,
        ih (fun h => hcomma (List.mem_cons_of_mem _ h)) (fun h => hline (List.mem_cons_of_mem _ h))]

theorem word?_append (hrest : Closes rest) (t : Text) :
    word? (t ++ rest) = (word? t).map fun x => (x.1, x.2 ++ rest) := by
  have hwords : ∀ w ∈ words, CodePoint.scalar ',' ∉ w.1 ∧ CodePoint.scalar '\n' ∉ w.1 := by
    decide
  unfold word?
  generalize words = ws at hwords ⊢
  induction ws with
  | nil => rfl
  | cons w ws ih =>
    obtain ⟨hcomma, hline⟩ := hwords w (List.mem_cons_self ..)
    obtain ⟨w, x⟩ := w
    rw [List.findSome?_cons, List.findSome?_cons]
    dsimp only
    rw [isPrefixOf_append hrest hcomma hline]
    cases hw : w.isPrefixOf t with
    | true =>
      have hle : w.length ≤ t.length := (List.isPrefixOf_iff_prefix.mp hw).length_le
      rw [if_pos rfl, if_pos rfl, List.drop_append_of_le_length hle]
      rfl
    | false => exact ih fun v hv => hwords v (List.mem_cons_of_mem _ hv)

/-! ## Numbers and words -/

/-- A number that is there, or the fault that none is. -/
def orFault (left : Nat) : Option (Json × Text) → Except JsonStop (Json × Text)
  | some r => .ok r
  | none => .error (.fault .value left)

theorem readScalar_word {t : Text} {x : Json × Text} (h : word? t = some x) :
    readScalar t = .ok x := by
  rw [readScalar, h]

theorem readScalar_minus {t : Text} (h : word? (.scalar '-' :: t) = none) :
    readScalar (.scalar '-' :: t) = (number? true t).bind (orFault (t.length + 1)) := by
  rw [readScalar, h]
  rfl

theorem readScalar_other {t : Text} (h : word? t = none) (hminus : t.head? ≠ some (.scalar '-')) :
    readScalar t = (number? false t).bind (orFault t.length) := by
  rw [readScalar, h]
  dsimp only
  split
  · exact absurd rfl hminus
  · rfl

theorem number?_orFault_append (hrest : Closes rest) {negative : Bool} {t r : Text} {x : Json}
    {left : Nat} (left' : Nat) (h : (number? negative t).bind (orFault left) = .ok (x, r)) :
    (number? negative (t ++ rest)).bind (orFault left') = .ok (x, r ++ rest) := by
  rw [number?_append hrest]
  cases hn : number? negative t with
  | error stop =>
    rw [hn] at h
    cases h
  | ok y =>
    rw [hn] at h
    cases y with
    | none => cases h
    | some y =>
      cases h
      rfl

theorem readScalar_append (hrest : Closes rest) {t r : Text} {x : Json}
    (h : readScalar t = .ok (x, r)) : readScalar (t ++ rest) = .ok (x, r ++ rest) := by
  have hwords := word?_append hrest t
  cases hw : word? t with
  | some y =>
    rw [hw] at hwords
    rw [readScalar_word hw] at h
    cases h
    exact readScalar_word hwords
  | none =>
    rw [hw] at hwords
    cases t with
    | nil => cases h
    | cons c t =>
      by_cases hc : c = .scalar '-'
      · subst hc
        rw [readScalar_minus hw] at h
        rw [List.cons_append] at hwords ⊢
        rw [readScalar_minus hwords]
        exact number?_orFault_append hrest _ h
      · rw [readScalar_other hw (head?_ne hc)] at h
        rw [readScalar_other hwords (head?_ne hc)]
        exact number?_orFault_append hrest _ h

/-- None of the opening signs begins a number or a word. -/
theorem isOpening_of_readScalar {c : CodePoint} {t : Text} {x : Json × Text}
    (h : readScalar (c :: t) = .ok x) : isOpening c = false := by
  cases hc : isOpening c with
  | false => rfl
  | true =>
    rw [isOpening, Bool.or_eq_true, Bool.or_eq_true, decide_eq_true_eq, decide_eq_true_eq,
      decide_eq_true_eq] at hc
    rcases hc with (rfl | rfl) | rfl <;> cases h

/-- What the reader of numbers and words reads to its end is read before what closes it. -/
theorem taken_readValue_closed (hrest : Closes rest) {t : Text} {x : Json}
    (h : readScalar t = .ok (x, [])) : taken (readValue (t ++ rest)) = .ok (x, rest) := by
  cases t with
  | nil => cases h
  | cons c t =>
    have happ := readScalar_append hrest h
    exact taken_readValue_scalar (isOpening_of_readScalar h) (List.suffix_append t rest).length_le
      happ

/-! ## Whole numbers -/

/-- The number of decimal digits can be read. -/
def FewDigits (n : Int) : Prop := (Nat.toDigits 10 n.natAbs).length ≤ Whole.maxDigits

theorem isAsciiDigit_scalar {c : Char} (h : c.isDigit = true) :
    (CodePoint.scalar c).isAsciiDigit = true := by
  rw [CodePoint.isAsciiDigit, Bool.and_eq_true, decide_eq_true_eq, decide_eq_true_eq]
  show 48 ≤ c.toNat ∧ c.toNat ≤ 57
  simpa [Char.isDigit, UInt32.le_iff_toNat_le] using h

theorem isAsciiDigit_of_mem {n : Nat} {c : CodePoint} (h : c ∈ Text.ofNat n) :
    c.isAsciiDigit = true := by
  obtain ⟨d, hd, rfl⟩ := List.mem_map.mp h
  exact isAsciiDigit_scalar (Nat.isDigit_of_mem_toDigits (by decide) (by decide) hd)

theorem head_toDigits {n : Nat} (hn : 0 < n) : (Nat.toDigits 10 n).head? ≠ some '0' := by
  induction n using Nat.strongRecOn with
  | ind n ih =>
    by_cases hlt : n < 10
    · rw [Nat.toDigits_of_lt_base hlt]
      have hdigit : ∀ m < 10, 0 < m → Nat.digitChar m ≠ '0' := by decide
      intro h
      exact hdigit n hlt hn (Option.some.inj h)
    · rw [Nat.toDigits_of_base_le (by decide) (by omega)]
      have := ih (n / 10) (by omega) (by omega)
      cases hd : Nat.toDigits 10 (n / 10) with
      | nil => exact absurd hd Nat.toDigits_ne_nil
      | cons c cs => rwa [hd] at this

theorem wholeDigits_ofNat (n : Nat) : wholeDigits (Text.ofNat n) = Text.ofNat n := by
  cases Nat.eq_zero_or_pos n with
  | inl hzero =>
    subst hzero
    rfl
  | inr hpos =>
    cases ht : Text.ofNat n with
    | nil => rfl
    | cons c t =>
      have hc : c ≠ .scalar '0' := by
        rintro rfl
        have := head_toDigits hpos
        cases hd : Nat.toDigits 10 n with
        | nil => exact Nat.toDigits_ne_nil hd
        | cons d ds =>
          rw [Text.ofNat, hd] at ht
          cases ht
          rw [hd] at this
          exact this rfl
      rw [wholeDigits, if_neg hc, ← ht, List.takeWhile_eq_self_iff]
      intro c hc
      exact isAsciiDigit_of_mem hc

theorem digitsValue_ofNat (n : Nat) : digitsValue (Text.ofNat n) = n := by
  have h := Nat.ofDigitChars_ten_toDigits (n := n)
  rw [Nat.ofDigitChars_eq_foldl] at h
  rw [digitsValue, Text.ofNat, List.foldl_map]
  exact h

theorem ofNat_ne_nil (n : Nat) : Text.ofNat n ≠ [] := by
  rw [Text.ofNat, Ne, List.map_eq_nil_iff]
  exact Nat.toDigits_ne_nil

theorem number?_ofNat {n : Nat} (h : (Nat.toDigits 10 n).length ≤ Whole.maxDigits)
    (negative : Bool) : number? negative (Text.ofNat n)
      = .ok (some (.int (if negative then -(n : Int) else n), [])) := by
  have hlength : ¬ Whole.maxDigits < (Text.ofNat n).length := by
    rw [Text.ofNat, List.length_map]
    omega
  rw [number?, wholeDigits_ofNat, if_neg (ofNat_ne_nil n), List.drop_length, readNumber]
  dsimp only [readFraction, readExponent]
  rw [if_neg hlength, digitsValue_ofNat]
  rfl

/-- No word has a digit among its letters, so none is read where the first or the second sign is
one. -/
theorem word?_eq_none_of_digit {c d : CodePoint} {t : Text}
    (h : c.isAsciiDigit = true ∨ d.isAsciiDigit = true) : word? (c :: d :: t) = none := by
  have hwords : ∀ w ∈ words, 2 ≤ w.1.length ∧ ∀ e ∈ w.1, e.isAsciiDigit = false := by decide
  rw [word?, List.findSome?_eq_none_iff]
  rintro ⟨w, x⟩ hw
  obtain ⟨hlength, hletters⟩ := hwords _ hw
  dsimp only at hlength hletters ⊢
  rw [if_neg]
  intro hprefix
  obtain ⟨u, hu⟩ := List.isPrefixOf_iff_prefix.mp hprefix
  match w, hlength with
  | e :: f :: w, _ =>
    cases hu
    rcases h with h | h
    · rw [hletters _ (List.mem_cons_self ..)] at h
      cases h
    · rw [hletters _ (List.mem_cons_of_mem _ (List.mem_cons_self ..))] at h
      cases h

theorem word?_single (c : CodePoint) : word? [c] = none := by
  have hwords : ∀ w ∈ words, 2 ≤ w.1.length := by decide
  rw [word?, List.findSome?_eq_none_iff]
  rintro ⟨w, x⟩ hw
  have hlength := hwords _ hw
  dsimp only at hlength ⊢
  rw [if_neg]
  intro hprefix
  have := (List.isPrefixOf_iff_prefix.mp hprefix).length_le
  simp only [List.length_singleton] at this
  omega

theorem readScalar_ofInt {n : Int} (h : FewDigits n) :
    readScalar (Text.ofInt n) = .ok (.int n, []) := by
  have hdigit : ∀ m c t, Text.ofNat m = c :: t → c.isAsciiDigit = true := by
    intro m c t ht
    apply isAsciiDigit_of_mem (n := m)
    rw [ht]
    exact List.mem_cons_self ..
  cases n with
  | ofNat n =>
    have hword : word? (Text.ofNat n) = none := by
      match ht : Text.ofNat n with
      | [] => rfl
      | [c] => exact word?_single c
      | c :: d :: t => exact word?_eq_none_of_digit (.inl (hdigit _ _ _ ht))
    have hminus : (Text.ofNat n).head? ≠ some (.scalar '-') := by
      intro hm
      have := isAsciiDigit_of_mem (List.mem_of_mem_head? hm)
      cases this
    rw [Text.ofInt, readScalar_other hword hminus, number?_ofNat (n := n) h]
    rfl
  | negSucc n =>
    have hword : word? (.scalar '-' :: Text.ofNat (n + 1)) = none := by
      match ht : Text.ofNat (n + 1) with
      | [] => exact word?_single _
      | c :: t => exact word?_eq_none_of_digit (.inr (hdigit _ _ _ ht))
    rw [Text.ofInt, readScalar_minus hword, number?_ofNat (n := n + 1) h]
    rfl

/-! ## What is left -/

theorem suffix_readFraction (t : Text) : (readFraction t).2 <:+ t := by
  cases t with
  | nil => exact List.suffix_rfl
  | cons c t =>
    by_cases hc : c = .scalar '.'
    · subst hc
      rw [readFraction]
      split
      · exact List.suffix_rfl
      · exact (List.dropWhile_suffix _).trans (List.suffix_cons ..)
    · simp only [readFraction_other (head?_ne hc), List.suffix_rfl]

theorem suffix_unsigned {negative : Bool} {t : Text} {x : Int × Text}
    (h : unsigned negative t = some x) : x.2 <:+ t := by
  unfold unsigned at h
  dsimp only at h
  split at h
  · cases h
  · cases h
    exact List.dropWhile_suffix _

theorem suffix_readSigned {t : Text} {x : Int × Text} (h : readSigned t = some x) : x.2 <:+ t := by
  cases t with
  | nil => cases h
  | cons c t =>
    by_cases hm : c = .scalar '-'
    · subst hm
      exact (@suffix_unsigned true _ _ h).trans (List.suffix_cons ..)
    by_cases hp : c = .scalar '+'
    · subst hp
      exact (@suffix_unsigned false _ _ h).trans (List.suffix_cons ..)
    · rw [readSigned_other (head?_ne hm) (head?_ne hp)] at h
      exact suffix_unsigned h

theorem suffix_readExponent (t : Text) : (readExponent t).2 <:+ t := by
  cases t with
  | nil => exact List.suffix_rfl
  | cons c t =>
    rw [readExponent]
    split
    · cases hs : readSigned t with
      | none => exact List.suffix_rfl
      | some x => exact (suffix_readSigned hs).trans (List.suffix_cons ..)
    · exact List.suffix_rfl

theorem suffix_readNumber {negative : Bool} {ds t : Text} {x : Json × Text}
    (h : readNumber negative ds t = .ok x) : x.2 <:+ t := by
  have hrest := (suffix_readExponent (readFraction t).2).trans (suffix_readFraction t)
  unfold readNumber at h
  dsimp only at h
  split at h
  · split at h
    · cases h
    · cases h
      exact hrest
  · cases h
    exact hrest

/-- What is read is a word, or a number behind its sign. -/
theorem readScalar_eq_ok {t : Text} {x : Json × Text} (h : readScalar t = .ok x) :
    word? t = some x ∨ ∃ negative u, u <:+ t
      ∧ readNumber negative (wholeDigits u) (u.drop (wholeDigits u).length) = .ok x := by
  have hnumber : ∀ negative u left, (number? negative u).bind (orFault left) = .ok x →
      readNumber negative (wholeDigits u) (u.drop (wholeDigits u).length) = .ok x := by
    intro negative u left hu
    unfold number? at hu
    split at hu
    · cases hu
    · cases hn : readNumber negative (wholeDigits u) (u.drop (wholeDigits u).length) with
      | error stop =>
        rw [hn] at hu
        cases hu
      | ok y =>
        rw [hn] at hu
        cases hu
        rfl
  cases hw : word? t with
  | some y =>
    rw [readScalar_word hw] at h
    cases h
    exact .inl rfl
  | none =>
    cases t with
    | nil => cases h
    | cons c t =>
      by_cases hc : c = .scalar '-'
      · subst hc
        rw [readScalar_minus hw] at h
        exact .inr ⟨true, t, List.suffix_cons .., hnumber _ _ _ h⟩
      · rw [readScalar_other hw (head?_ne hc)] at h
        exact .inr ⟨false, c :: t, List.suffix_rfl, hnumber _ _ _ h⟩

theorem word?_eq_some {t : Text} {x : Json × Text} (h : word? t = some x) :
    ∃ w ∈ words, x = (w.2, t.drop w.1.length) := by
  obtain ⟨w, hmem, hw⟩ := List.exists_of_findSome?_eq_some h
  dsimp only at hw
  split at hw
  · cases hw
    exact ⟨w, hmem, rfl⟩
  · cases hw

theorem suffix_readScalar {t : Text} {x : Json × Text} (h : readScalar t = .ok x) : x.2 <:+ t := by
  rcases readScalar_eq_ok h with hword | ⟨negative, u, hu, hnumber⟩
  · obtain ⟨w, _, rfl⟩ := word?_eq_some hword
    exact List.drop_suffix ..
  · exact ((suffix_readNumber hnumber).trans (List.drop_suffix ..)).trans hu

/-! ## Numbers with a point -/

/-- The signs of which numbers are made. -/
def isNumeric (c : Char) : Bool := c.isDigit || c = '.' || c = 'e' || c = '+' || c = '-'

theorem isNumeric_toDigits {n : Nat} {c : Char} (h : c ∈ Nat.toDigits 10 n) :
    isNumeric c = true := by
  simp [isNumeric, Nat.isDigit_of_mem_toDigits (by decide) (by decide) h]

theorem isNumeric_positional {ds : List Char} (hds : ∀ c ∈ ds, isNumeric c = true) (power : Int) :
    ∀ c ∈ NumberFormat.positional ds power, isNumeric c = true := by
  intro c hc
  unfold NumberFormat.positional at hc
  split at hc
  · simp only [List.mem_append, List.mem_replicate] at hc
    rcases hc with (hc | ⟨_, rfl⟩) | hc
    · exact List.all_eq_true.mp (by decide) c hc
    · rfl
    · exact hds c hc
  · simp only [List.mem_append, List.mem_replicate, List.mem_cons] at hc
    rcases hc with (hc | ⟨_, rfl⟩) | rfl | hc
    · exact hds c (List.mem_of_mem_take hc)
    · rfl
    · rfl
    · split at hc
      · rw [List.mem_singleton] at hc
        subst hc
        rfl
      · exact hds c (List.mem_of_mem_drop hc)

theorem isNumeric_scientific {ds : List Char} (hds : ∀ c ∈ ds, isNumeric c = true) (width : Nat)
    (power : Int) : ∀ c ∈ NumberFormat.scientific width ds power, isNumeric c = true := by
  intro c hc
  unfold NumberFormat.scientific at hc
  simp only [List.mem_append, List.mem_replicate, List.mem_cons] at hc
  rcases hc with hc | rfl | rfl | ⟨_, rfl⟩ | hc
  · split at hc
    · cases hc
    · exact hds c hc
    · rename_i d ds _
      simp only [List.mem_cons] at hc
      rcases hc with rfl | rfl | hc
      · exact hds _ (List.mem_cons_self ..)
      · rfl
      · exact hds c (List.mem_cons_of_mem _ hc)
  · rfl
  · split <;> rfl
  · rfl
  · exact isNumeric_toDigits hc

theorem isNumeric_digits (f : NumberFormat) (m : Nat) (e : Int) :
    ∀ c ∈ f.digits m e, isNumeric c = true := by
  have hleading : ∀ c ∈ (NumberFormat.leading m e).1, isNumeric c = true := by
    intro c hc
    unfold NumberFormat.leading at hc
    rw [List.mem_reverse] at hc
    exact isNumeric_toDigits (List.mem_reverse.mp ((List.dropWhile_suffix _).subset hc))
  intro c hc
  unfold NumberFormat.digits at hc
  split at hc
  · exact List.all_eq_true.mp (by decide) c hc
  · dsimp only at hc
    split at hc
    · exact isNumeric_positional hleading _ c hc
    · exact isNumeric_scientific hleading _ _ c hc

/-- The text of a number holds neither blanks nor control characters. -/
theorem ink_of_mem_write {x : Double} {c : CodePoint} (h : c ∈ NumberFormat.file.write x) :
    32 < c.val := by
  have hsign : ∀ negative, ∀ d ∈ NumberFormat.sign negative, 32 < CodePoint.val d := by decide
  have hwords : (∀ d ∈ NumberFormat.file.nan, 32 < CodePoint.val d)
      ∧ ∀ d ∈ NumberFormat.file.infinity, 32 < CodePoint.val d := by decide
  cases x with
  | nan => exact hwords.1 c h
  | infinity negative =>
    rcases List.mem_append.mp h with h | h
    · exact hsign _ c h
    · exact hwords.2 c h
  | finite negative m e canonical =>
    rcases List.mem_append.mp h with h | h
    · exact hsign _ c h
    · obtain ⟨d, hd, rfl⟩ := List.mem_map.mp h
      have hnumeric := isNumeric_digits _ _ _ d hd
      simp only [isNumeric, Bool.or_eq_true, decide_eq_true_eq] at hnumeric
      rcases hnumeric with (((hdigit | rfl) | rfl) | rfl) | rfl
      · have : 48 ≤ d.toNat ∧ d.toNat ≤ 57 := by
          simpa [Char.isDigit, UInt32.le_iff_toNat_le] using hdigit
        show 32 < d.toNat
        omega
      all_goals decide

/-- The text of a number with a point is read back as the number. -/
def ReadsBack (x : Double) : Prop := read (NumberFormat.file.write x) = .ok (.real x)

theorem read_eq_ok {t : Text} {x : Json} (h : read t = .ok x) :
    ∃ r, taken (readValue (skip t)) = .ok (x, r) ∧ skip r = [] := by
  unfold read at h
  split at h
  · rename_i y hy
    cases h
    unfold readAll at hy
    split at hy
    · cases hy
    · cases hv : readValue (skip t) with
      | error stop =>
        rw [hv] at hy
        cases hy
      | ok z =>
        rw [hv] at hy
        dsimp only [bind, Except.bind] at hy
        split at hy
        · rename_i hr
          cases hy
          exact ⟨z.1.2, rfl, hr⟩
        · cases hy
  · cases h
  · cases h

/-- A number that is read back is read back to its end. -/
theorem ReadsBack.readScalar {x : Double} (h : ReadsBack x) :
    readScalar (NumberFormat.file.write x) = .ok (.real x, []) := by
  have hink : ∀ c ∈ NumberFormat.file.write x, isSpace c = false := by
    intro c hc
    have hval := ink_of_mem_write hc
    simp only [isSpace, Bool.or_eq_false_iff, decide_eq_false_iff_not]
    refine ⟨⟨⟨?_, ?_⟩, ?_⟩, ?_⟩ <;> (rintro rfl; revert hval; decide)
  have hskip : ∀ t : Text, (∀ c ∈ t, isSpace c = false) → skip t = t := by
    intro t ht
    cases t with
    | nil => rfl
    | cons c t => exact skip_of_not_isSpace (ht c (List.mem_cons_self ..))
  obtain ⟨r, hread, hr⟩ := read_eq_ok h
  rw [hskip _ hink] at hread
  cases came_of_readValue hread with
  | scalar hs =>
    -- What is left is blank, and the text of a number has no blanks.
    have hsuffix := suffix_readScalar hs
    rw [hskip r fun c hc => hink c (hsuffix.subset hc)] at hr
    rw [hs, hr]
  | text u s front value => cases value
  | noItems u front value => cases value
  | items u xs front read value => cases value
  | noMembers u front value => cases value
  | members u ms front read value => cases value

end Json

end GalleryScan
