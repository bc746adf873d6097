import GalleryScan.Number.Shortest
import Mathlib.Algebra.Order.Field.Power
import Mathlib.Algebra.Order.Field.Rat
import Mathlib.Data.Nat.Cast.Order.Field
import Mathlib.Tactic.FieldSimp
import Mathlib.Tactic.Linarith
import Mathlib.Tactic.NormNum
import Mathlib.Tactic.Positivity
import Mathlib.Tactic.Ring

/-!
# What rounds to a number

The fractions that are rounded to a finite number lie in an interval around it, half a last place
wide on each side, or a quarter below a power of two. The ends belong to it where the mantissa is
even:

> `Covers m e (digits * 10 ^ exponent) → ofDecimal negative digits exponent = finite negative m e h`
-/

set_option autoImplicit false

namespace GalleryScan.Double

/-- The fraction lies where it is rounded to `m * 2 ^ e`. -/
structure Covers (m : Nat) (e : Int) (v : ℚ) : Prop where
  low : ((quarters m e).1 : ℚ) * 2 ^ (e - 2) ≤ v
  high : v ≤ ((quarters m e).2.2 : ℚ) * 2 ^ (e - 2)
  inside : m % 2 = 1 →
    ((quarters m e).1 : ℚ) * 2 ^ (e - 2) < v ∧ v < ((quarters m e).2.2 : ℚ) * 2 ^ (e - 2)

/-- The exponent gives the fraction a whole part of 53 bits, or is the least one. -/
structure Scales (v : ℚ) (e : Int) : Prop where
  least : -1074 ≤ e
  lt : v < 2 ^ 53 * 2 ^ e
  le : e = -1074 ∨ 2 ^ 52 * 2 ^ e ≤ v

variable {num den m : Nat} {e : Int} {v : ℚ}

/-! ## The exponent of a fraction -/

theorem inUnits_eq (num : Nat) (hden : 0 < den) (e : Int) : 0 < (inUnits num den e).2
    ∧ ((inUnits num den e).1 : ℚ) / (inUnits num den e).2 = (num : ℚ) / den / 2 ^ e := by
  cases e with
  | ofNat e =>
    refine ⟨Nat.mul_pos hden (Nat.two_pow_pos e), ?_⟩
    show (num : ℚ) / ((den * 2 ^ e : Nat) : ℚ) = num / den / 2 ^ (e : Int)
    rw [Nat.cast_mul, Nat.cast_pow, zpow_natCast, div_div]
    rfl
  | negSucc e =>
    refine ⟨hden, ?_⟩
    show ((num * 2 ^ (e + 1) : Nat) : ℚ) / den = num / den / 2 ^ Int.negSucc e
    rw [Nat.cast_mul, Nat.cast_pow, zpow_negSucc, div_inv_eq_mul, div_mul_eq_mul_div]
    rfl

/-- Two whole numbers and their lengths in bits. -/
theorem log2_bounds (hnum : 0 < num) (hden : 0 < den) :
    (2 : ℚ) ^ ((num.log2 : Int) - den.log2 - 1) < num / den
      ∧ (num : ℚ) / den < 2 ^ ((num.log2 : Int) - den.log2 + 1) := by
  have hnum₁ : (2 : ℚ) ^ num.log2 ≤ num := by exact_mod_cast Nat.log2_self_le hnum.ne'
  have hnum₂ : (num : ℚ) < 2 ^ (num.log2 + 1) := by exact_mod_cast Nat.lt_log2_self
  have hden₁ : (2 : ℚ) ^ den.log2 ≤ den := by exact_mod_cast Nat.log2_self_le hden.ne'
  have hden₂ : (den : ℚ) < 2 ^ (den.log2 + 1) := by exact_mod_cast Nat.lt_log2_self
  have hpos : (0 : ℚ) < den := by exact_mod_cast hden
  constructor
  · rw [lt_div_iff₀ hpos]
    calc (2 : ℚ) ^ ((num.log2 : Int) - den.log2 - 1) * den
        < 2 ^ ((num.log2 : Int) - den.log2 - 1) * 2 ^ (den.log2 + 1) := by gcongr
      _ = 2 ^ num.log2 := by
          rw [← zpow_natCast, ← zpow_natCast, ← zpow_add₀ (by norm_num)]
          congr 1
          push_cast
          ring
      _ ≤ num := hnum₁
  · rw [div_lt_iff₀ hpos]
    calc (num : ℚ) < 2 ^ (num.log2 + 1) := hnum₂
      _ = 2 ^ ((num.log2 : Int) - den.log2 + 1) * 2 ^ den.log2 := by
          rw [← zpow_natCast, ← zpow_natCast, ← zpow_add₀ (by norm_num)]
          congr 1
          push_cast
          ring
      _ ≤ 2 ^ ((num.log2 : Int) - den.log2 + 1) * den := by gcongr

theorem two_pow_add (k : Nat) (e : Int) : (2 : ℚ) ^ k * 2 ^ e = 2 ^ (e + k) := by
  rw [zpow_add₀ two_ne_zero, zpow_natCast, mul_comm]

theorem scales_exponentFor (hnum : 0 < num) (hden : 0 < den) :
    Scales (num / den) (exponentFor num den) := by
  obtain ⟨hlow, hhigh⟩ := log2_bounds hnum hden
  -- The lengths in bits leave two exponents to choose from: `low`, where the quotient then has at
  -- most 53 bits, and the one above it.
  obtain ⟨low, hlow'⟩ : ∃ low, low = max ((num.log2 : Int) - den.log2 - 53) (-1074) := ⟨_, rfl⟩
  have hexponent : exponentFor num den
      = if (inUnits num den low).1 / (inUnits num den low).2 < 2 ^ 53 then low else low + 1 := by
    rw [hlow']
    rfl
  obtain ⟨hpos, hunits⟩ := inUnits_eq num hden low
  have hpow : (0 : ℚ) < 2 ^ low := by positivity
  have hfew : (inUnits num den low).1 / (inUnits num den low).2 < 2 ^ 53
      ↔ (num : ℚ) / den < 2 ^ 53 * 2 ^ low := by
    rw [← div_lt_iff₀ hpow, ← hunits, div_lt_iff₀ (by exact_mod_cast hpos),
      Nat.div_lt_iff_lt_mul hpos]
    norm_cast
  rw [hexponent]
  split
  · rename_i hlt
    refine ⟨by omega, hfew.mp hlt, ?_⟩
    by_cases hleast : low = -1074
    · exact .inl hleast
    · right
      have hbits : low + (52 : Nat) = (num.log2 : Int) - den.log2 - 1 := by omega
      rw [two_pow_add, hbits]
      exact hlow.le
  · rename_i hge
    have hge' : (2 : ℚ) ^ 53 * 2 ^ low ≤ num / den := not_lt.mp (mt hfew.mpr hge)
    refine ⟨by omega, ?_, .inr ?_⟩
    · refine hhigh.trans_le ?_
      rw [two_pow_add]
      exact zpow_le_zpow_right₀ one_le_two (by omega)
    · rw [two_pow_add] at hge' ⊢
      convert hge' using 2
      omega

/-- No other exponent will do. -/
theorem Scales.unique {e' : Int} (h : Scales v e) (h' : Scales v e') : e = e' := by
  have hle : ∀ {a b : Int}, Scales v a → Scales v b → ¬ a < b := by
    intro a b ha hb hlt
    have hleast := ha.least
    have hb' : 2 ^ 52 * 2 ^ b ≤ v := hb.le.resolve_left (by omega)
    have hchain : (2 : ℚ) ^ 53 * 2 ^ a ≤ 2 ^ 52 * 2 ^ b := by
      rw [two_pow_add, two_pow_add]
      exact zpow_le_zpow_right₀ one_le_two (by omega)
    exact absurd (ha.lt.trans_le hchain) hb'.not_gt
  exact le_antisymm (not_lt.mp (hle h' h)) (not_lt.mp (hle h h'))

/-! ## Rounding to a whole number -/

/-- Twice the remainder tells on which side of a half the fraction lies. -/
theorem roundQuotient_of_near {n d k : Nat} (hd : 0 < d) (hlow : 2 * (k * d) ≤ 2 * n + d)
    (hhigh : 2 * n ≤ 2 * (k * d) + d)
    (hinside : k % 2 = 1 → 2 * (k * d) < 2 * n + d ∧ 2 * n < 2 * (k * d) + d) :
    roundQuotient n d = k := by
  have hsplit : d * (n / d) + n % d = n := Nat.div_add_mod n d
  have hmod := Nat.mod_lt n hd
  generalize hq : n / d = q at hsplit
  generalize hr : n % d = r at hsplit hmod
  -- At most a half away is only the quotient itself or the number behind it.
  have hcases : k = q ∨ k = q + 1 := by
    have hqk : q ≤ k := by
      by_contra hlt
      have : (k + 1) * d ≤ q * d := Nat.mul_le_mul_right d (by omega)
      nlinarith
    have hkq : k ≤ q + 1 := by
      by_contra hlt
      have : (q + 2) * d ≤ k * d := Nat.mul_le_mul_right d (by omega)
      nlinarith
    omega
  rw [roundQuotient, hq, hr]
  rcases hcases with rfl | rfl
  · rw [Nat.mul_comm k d] at hhigh hinside
    split
    · rfl
    split
    · rfl
    · omega
  · have hsucc : (q + 1) * d = d * q + d := by rw [Nat.succ_mul, Nat.mul_comm]
    rw [hsucc] at hlow hinside
    split
    · omega
    split
    · omega
    · rfl

/-- A fraction is rounded to a whole number at most a half away, and to one just a half away where
it is even. -/
theorem roundQuotient_eq {n d k : Nat} (hd : 0 < d) (hlow : (k : ℚ) - 1 / 2 ≤ n / d)
    (hhigh : (n : ℚ) / d ≤ k + 1 / 2)
    (hinside : k % 2 = 1 → (k : ℚ) - 1 / 2 < n / d ∧ (n : ℚ) / d < k + 1 / 2) :
    roundQuotient n d = k := by
  have hpos : (0 : ℚ) < d := by exact_mod_cast hd
  apply roundQuotient_of_near hd
  · rw [le_div_iff₀ hpos] at hlow
    have : (2 * (k * d) : ℚ) ≤ 2 * n + d := by linarith
    exact_mod_cast this
  · rw [div_le_iff₀ hpos] at hhigh
    have : (2 * n : ℚ) ≤ 2 * (k * d) + d := by linarith
    exact_mod_cast this
  · intro hk
    obtain ⟨hlow, hhigh⟩ := hinside hk
    rw [lt_div_iff₀ hpos] at hlow
    rw [div_lt_iff₀ hpos] at hhigh
    have hlow' : (2 * (k * d) : ℚ) < 2 * n + d := by linarith
    have hhigh' : (2 * n : ℚ) < 2 * (k * d) + d := by linarith
    exact ⟨by exact_mod_cast hlow', by exact_mod_cast hhigh'⟩

/-! ## Rounding to a number -/

theorem quarter (e : Int) : (2 : ℚ) ^ e = 4 * 2 ^ (e - 2) := by
  rw [zpow_sub₀ two_ne_zero]
  norm_num
  ring

theorem quarters_low (hm : 0 < m) (e : Int) : 4 * (m : ℚ) - 2 ≤ (quarters m e).1
    ∧ (m = 2 ^ 52 ∧ e ≠ -1074 → 4 * (m : ℚ) - 1 ≤ (quarters m e).1) := by
  have hcast : ∀ k ≤ 4 * m, ((4 * m - k : Nat) : ℚ) = 4 * m - k := by
    intro k hk
    rw [Nat.cast_sub hk, Nat.cast_mul]
    rfl
  show 4 * (m : ℚ) - 2 ≤ ((4 * m - if _ then 1 else 2 : Nat) : ℚ)
    ∧ (_ → 4 * (m : ℚ) - 1 ≤ ((4 * m - if _ then 1 else 2 : Nat) : ℚ))
  split
  · rw [hcast 1 (by omega)]
    push_cast
    exact ⟨by linarith, fun _ => le_refl _⟩
  · rename_i hother
    rw [hcast 2 (by omega)]
    exact ⟨le_refl _, fun hpower => absurd hpower hother⟩

theorem quarters_high (m : Nat) (e : Int) : ((quarters m e).2.2 : ℚ) = 4 * m + 2 := by
  show ((4 * m + 2 : Nat) : ℚ) = _
  push_cast
  rfl

/-- The interval in last places. -/
theorem Covers.bounds (h : Covers m e v) (hm : 0 < m) :
    ((m : ℚ) - 1 / 2) * 2 ^ e ≤ v ∧ v ≤ ((m : ℚ) + 1 / 2) * 2 ^ e
      ∧ (m % 2 = 1 → ((m : ℚ) - 1 / 2) * 2 ^ e < v ∧ v < ((m : ℚ) + 1 / 2) * 2 ^ e) := by
  have hpow : (0 : ℚ) < 2 ^ (e - 2) := by positivity
  have hlow : ((m : ℚ) - 1 / 2) * 2 ^ e ≤ (quarters m e).1 * 2 ^ (e - 2) := by
    have := mul_le_mul_of_nonneg_right (quarters_low hm e).1 hpow.le
    rw [quarter e]
    linarith
  have hhigh : ((quarters m e).2.2 : ℚ) * 2 ^ (e - 2) = ((m : ℚ) + 1 / 2) * 2 ^ e := by
    rw [quarters_high, quarter e]
    ring
  refine ⟨hlow.trans h.low, hhigh ▸ h.high, ?_⟩
  intro hodd
  obtain ⟨hleft, hright⟩ := h.inside hodd
  exact ⟨hlow.trans_lt hleft, hhigh ▸ hright⟩

theorem Covers.bounds_power (h : Covers (2 ^ 52) e v) (he : e ≠ -1074) :
    ((2 : ℚ) ^ 53 - 1 / 2) * 2 ^ (e - 1) ≤ v := by
  have hpow : (0 : ℚ) < 2 ^ (e - 2) := by positivity
  have hlow := (quarters_low (m := 2 ^ 52) (by positivity) e).2 ⟨rfl, he⟩
  have hhalf : (2 : ℚ) ^ (e - 1) = 2 * 2 ^ (e - 2) := by
    rw [← zpow_one_add₀ two_ne_zero]
    congr 1
    ring
  refine le_trans ?_ h.low
  rw [hhalf]
  push_cast at hlow
  nlinarith [mul_le_mul_of_nonneg_right hlow hpow.le]

theorem Covers.pos (h : Covers m e v) (hm : 0 < m) : 0 < v := by
  have hpow : (0 : ℚ) < 2 ^ e := by positivity
  have hm' : (1 : ℚ) ≤ m := by exact_mod_cast hm
  have hlow := (h.bounds hm).1
  nlinarith

theorem make_of_canonical {negative : Bool} (h : Canonical m e) :
    make negative m e = .finite negative m e h := dif_pos h

/-- Where the fraction has the exponent of the number, it is rounded to its mantissa. -/
theorem nearest_of_exponent (hm : 0 < m) (hnum : 0 < num) (hcanonical : Canonical m e)
    (hden : 0 < den) (h : Covers m e (num / den)) (hexponent : exponentFor num den = e)
    (negative : Bool) : nearest negative num den = .finite negative m e hcanonical := by
  obtain ⟨hlow, hhigh, hinside⟩ := h.bounds hm
  have hpow : (0 : ℚ) < 2 ^ e := by positivity
  obtain ⟨hpos, hunits⟩ := inUnits_eq num hden e
  have hround : roundQuotient (inUnits num den e).1 (inUnits num den e).2 = m := by
    apply roundQuotient_eq hpos
    · rwa [hunits, le_div_iff₀ hpow]
    · rwa [hunits, div_le_iff₀ hpow]
    · rwa [hunits, lt_div_iff₀ hpow, div_lt_iff₀ hpow]
  have htop : m ≠ Nat.pow 2 53 := hcanonical.1.ne
  rw [nearest, if_neg hnum.ne']
  dsimp only
  rw [hexponent, hround, if_neg htop, make_of_canonical hcanonical]

/-- Just below a power of two the exponent is one less, and rounding goes up to the power. -/
theorem nearest_of_power (hnum : 0 < num) (hcanonical : Canonical (2 ^ 52) e) (hden : 0 < den)
    (h : Covers (2 ^ 52) e (num / den)) (hnormal : e ≠ -1074)
    (hbelow : (num : ℚ) / den < 2 ^ 52 * 2 ^ e) (negative : Bool) :
    nearest negative num den = .finite negative (2 ^ 52) e hcanonical := by
  have hleast := hcanonical.2.1
  have hpower := h.bounds_power hnormal
  have hhalf : (2 : ℚ) ^ e = 2 * 2 ^ (e - 1) := by
    rw [← zpow_one_add₀ two_ne_zero]
    congr 1
    ring
  have hpow : (0 : ℚ) < 2 ^ (e - 1) := by positivity
  rw [hhalf] at hbelow
  have hexponent : exponentFor num den = e - 1 := by
    refine (scales_exponentFor hnum hden).unique ⟨by omega, by linarith, .inr ?_⟩
    nlinarith
  obtain ⟨hpos, hunits⟩ := inUnits_eq num hden (e - 1)
  have hround :
      roundQuotient (inUnits num den (e - 1)).1 (inUnits num den (e - 1)).2 = 2 ^ 53 := by
    apply roundQuotient_eq hpos
    · rw [hunits, le_div_iff₀ hpow]
      push_cast
      exact hpower
    · rw [hunits, div_le_iff₀ hpow]
      push_cast
      linarith
    · intro hodd
      norm_num at hodd
  have htop : (2 ^ 53 : Nat) = Nat.pow 2 53 := rfl
  rw [nearest, if_neg hnum.ne']
  dsimp only
  rw [hexponent, hround, if_pos htop, sub_add_cancel]
  exact make_of_canonical hcanonical

/-- A fraction in the interval of a number is rounded to it. -/
theorem nearest_of_covers (hm : 0 < m) (hcanonical : Canonical m e) (hden : 0 < den)
    (h : Covers m e (num / den)) (negative : Bool) :
    nearest negative num den = .finite negative m e hcanonical := by
  have hnum : 0 < num := by
    have hpos := h.pos hm
    rw [div_pos_iff_of_pos_right (by exact_mod_cast hden)] at hpos
    exact_mod_cast hpos
  obtain ⟨hlow, hhigh, _⟩ := h.bounds hm
  have hpow : (0 : ℚ) < 2 ^ e := by positivity
  by_cases hsame : e = -1074 ∨ 2 ^ 52 * 2 ^ e ≤ (num : ℚ) / den
  · refine nearest_of_exponent hm hnum hcanonical hden h ?_ negative
    refine (scales_exponentFor hnum hden).unique ⟨hcanonical.2.1, hhigh.trans_lt ?_, hsame⟩
    have hm' : (m : ℚ) + 1 ≤ 2 ^ 53 := by exact_mod_cast hcanonical.1
    nlinarith
  · obtain ⟨hnormal, hbelow⟩ := not_or.mp hsame
    rw [not_le] at hbelow
    -- Only the interval of the power of two itself goes below it.
    have hm' : m = 2 ^ 52 := by
      have hlt : (m : ℚ) < 2 ^ 52 + 1 := by nlinarith
      have hlt' : m < 2 ^ 52 + 1 := by exact_mod_cast hlt
      have hge : 2 ^ 52 ≤ m := hcanonical.2.2.2.resolve_right hnormal
      omega
    subst hm'
    exact nearest_of_power hnum hcanonical hden h hnormal hbelow negative

/-! ## Decimals -/

theorem decimalLength_le_iff (n k : Nat) : decimalLength n ≤ k ↔ n < 10 ^ k := by
  rw [decimalLength]
  split
  · rename_i hzero
    subst hzero
    exact iff_of_true (Nat.zero_le k) (Nat.pow_pos (by decide))
  · cases k with
    | zero =>
      have := Nat.length_toDigits_pos (b := 10) (n := n)
      omega
    | succ k => exact Nat.length_toDigits_le_iff (by decide) k.succ_pos

/-- A decimal and the power of ten that its first digit has. -/
theorem decimal_bounds {digits : Nat} (hdigits : 0 < digits) (exponent : Int) :
    (10 : ℚ) ^ (decimalLength digits + exponent - 1) ≤ digits * 10 ^ exponent
      ∧ (digits : ℚ) * 10 ^ exponent < 10 ^ (decimalLength digits + exponent) := by
  have hpow : (0 : ℚ) < 10 ^ exponent := by positivity
  have hlength : 1 ≤ decimalLength digits := by
    by_contra hzero
    have := (decimalLength_le_iff digits 0).mp (by omega)
    omega
  have hlow : 10 ^ (decimalLength digits - 1) ≤ digits := by
    by_contra hlt
    have := (decimalLength_le_iff digits (decimalLength digits - 1)).mpr (by omega)
    omega
  have hhigh : digits < 10 ^ decimalLength digits := (decimalLength_le_iff _ _).mp (le_refl _)
  constructor
  · have hsplit : (10 : ℚ) ^ (decimalLength digits + exponent - 1)
        = 10 ^ (decimalLength digits - 1) * 10 ^ exponent := by
      rw [← zpow_natCast, ← zpow_add₀ (by norm_num)]
      congr 1
      omega
    rw [hsplit]
    gcongr
    exact_mod_cast hlow
  · rw [zpow_add₀ (by norm_num), zpow_natCast]
    gcongr
    exact_mod_cast hhigh

theorem two_zpow_lt_ten_zpow : (2 : ℚ) ^ (1200 : Int) < 10 ^ (400 : Int) := by
  have hcube : (2 : ℚ) ^ (1200 : Int) = 8 ^ (400 : Int) := by
    have hsplit : (1200 : Int) = 3 * 400 := rfl
    rw [hsplit, zpow_mul]
    norm_num
  rw [hcube]
  exact zpow_lt_zpow_left₀ (by norm_num) (by norm_num) (by norm_num)

/-- No number in the interval of a finite one is so great or so small that powers are left out. -/
theorem Covers.magnitude (hm : 0 < m) (hcanonical : Canonical m e) {digits : Nat} {exponent : Int}
    (h : Covers m e (digits * 10 ^ exponent)) : 0 < digits
      ∧ ¬ (decimalLength digits + exponent : Int) < -400
      ∧ ¬ (400 : Int) < decimalLength digits + exponent := by
  have hten : (0 : ℚ) < 10 ^ exponent := by positivity
  have hdigits : 0 < digits := by
    have hpos := h.pos hm
    rw [mul_pos_iff_of_pos_right hten] at hpos
    exact_mod_cast hpos
  obtain ⟨hleast, hmost⟩ := decimal_bounds hdigits exponent
  obtain ⟨hlow, hhigh, _⟩ := h.bounds hm
  obtain ⟨hfew, hmin, hmax, _⟩ := hcanonical
  have hm₁ : (1 : ℚ) ≤ m := by exact_mod_cast hm
  have hm₂ : (m : ℚ) + 1 ≤ 2 ^ 53 := by exact_mod_cast hfew
  refine ⟨hdigits, ?_, ?_⟩
  · intro hsmall
    have hbelow : (digits : ℚ) * 10 ^ exponent < 10 ^ (-400 : Int) :=
      hmost.trans_le (zpow_le_zpow_right₀ (by norm_num) (by omega))
    have hgap : (10 : ℚ) ^ (-400 : Int) < 2 ^ (-1200 : Int) := by
      rw [zpow_neg, zpow_neg]
      exact inv_strictAnti₀ (by positivity) two_zpow_lt_ten_zpow
    have habove : (2 : ℚ) ^ (-1200 : Int) ≤ 2 ^ (e - 1) :=
      zpow_le_zpow_right₀ one_le_two (by omega)
    have hhalf : (2 : ℚ) ^ (e - 1) ≤ (m - 1 / 2) * 2 ^ e := by
      rw [zpow_sub_one₀ two_ne_zero, mul_comm]
      gcongr
      linarith
    linarith
  · intro hlarge
    have habove : (10 : ℚ) ^ (400 : Int) ≤ digits * 10 ^ exponent :=
      le_trans (zpow_le_zpow_right₀ (by norm_num) (by omega)) hleast
    have hbelow : ((m : ℚ) + 1 / 2) * 2 ^ e ≤ 2 ^ 53 * 2 ^ e := by
      gcongr
      linarith
    have hgap : (2 : ℚ) ^ 53 * 2 ^ e ≤ 2 ^ (1200 : Int) := by
      rw [two_pow_add]
      exact zpow_le_zpow_right₀ one_le_two (by omega)
    exact absurd (habove.trans (hhigh.trans (hbelow.trans hgap))) two_zpow_lt_ten_zpow.not_ge

/-- A decimal in the interval of a number is read as that number. -/
theorem ofDecimal_of_covers (hm : 0 < m) (hcanonical : Canonical m e) {digits : Nat}
    {exponent : Int} (h : Covers m e (digits * 10 ^ exponent)) (negative : Bool) :
    ofDecimal negative digits exponent = .finite negative m e hcanonical := by
  obtain ⟨hdigits, hsmall, hlarge⟩ := h.magnitude hm hcanonical
  have hzero : ¬ (digits = 0 ∨ (decimalLength digits + exponent : Int) < -400) :=
    not_or.mpr ⟨hdigits.ne', hsmall⟩
  rw [ofDecimal.eq_def]
  dsimp only
  rw [if_neg hzero, if_neg hlarge]
  cases exponent with
  | ofNat k =>
    apply nearest_of_covers hm hcanonical Nat.one_pos
    have hsame : ((digits * Nat.pow 10 k : Nat) : ℚ) / (1 : Nat) = digits * 10 ^ (k : Int) := by
      rw [Nat.cast_one, div_one, Nat.cast_mul, zpow_natCast]
      exact congrArg _ (Nat.cast_pow 10 k)
    rw [hsame]
    exact h
  | negSucc k =>
    apply nearest_of_covers hm hcanonical (Nat.pow_pos (by decide))
    have hsame : (digits : ℚ) / ((10 ^ (k + 1) : Nat) : ℚ) = digits * 10 ^ Int.negSucc k := by
      rw [zpow_negSucc, div_eq_mul_inv, Nat.cast_pow]
      rfl
    rw [← hsame] at h
    exact h

end GalleryScan.Double
