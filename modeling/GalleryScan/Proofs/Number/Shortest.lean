import GalleryScan.Proofs.Number.Rounding

/-!
# The shortest digits read back

Seventeen digits make a grid so fine that one of the two neighbours of a number lies where it is
rounded to that number. So the search for digits always ends with a hit:

> `Covers m e ((shortest m e).1 * 10 ^ (shortest m e).2)`
-/

set_option autoImplicit false

namespace GalleryScan.Double

variable {m : Nat} {e ten : Int}

/-! ## Comparing on a grid -/

theorem toNat_zpow {a : ℚ} (ha : a ≠ 0) (k : Int) :
    a ^ k.toNat = a ^ k * a ^ (-k).toNat := by
  rw [← zpow_natCast, ← zpow_natCast, ← zpow_add₀ ha]
  congr 1
  omega

/-- The factors are the two powers in the same units. -/
theorem factors_eq (two ten : Int) : ∃ c : ℚ, 0 < c
    ∧ ((factors two ten).1 : ℚ) = 2 ^ two * c ∧ ((factors two ten).2 : ℚ) = 10 ^ ten * c := by
  refine ⟨10 ^ (-ten).toNat * 2 ^ (-two).toNat, by positivity, ?_, ?_⟩
  · show ((2 ^ two.toNat * 10 ^ (-ten).toNat : Nat) : ℚ) = _
    push_cast
    rw [toNat_zpow two_ne_zero two]
    ring
  · show ((10 ^ ten.toNat * 2 ^ (-two).toNat : Nat) : ℚ) = _
    push_cast
    rw [toNat_zpow (by norm_num) ten]
    ring

theorem factors_compare (two ten : Int) (x y : Nat) :
    (x * (factors two ten).1 ≤ y * (factors two ten).2 ↔ (x : ℚ) * 2 ^ two ≤ y * 10 ^ ten)
      ∧ (y * (factors two ten).2 ≤ x * (factors two ten).1
        ↔ (y : ℚ) * 10 ^ ten ≤ x * 2 ^ two) := by
  obtain ⟨c, hc, ha, hb⟩ := factors_eq two ten
  constructor
  · rw [← Nat.cast_le (α := ℚ), Nat.cast_mul, Nat.cast_mul, ha, hb, ← mul_assoc, ← mul_assoc,
      mul_le_mul_iff_left₀ hc]
  · rw [← Nat.cast_le (α := ℚ), Nat.cast_mul, Nat.cast_mul, ha, hb, ← mul_assoc, ← mul_assoc,
      mul_le_mul_iff_left₀ hc]

/-- Do the digits on the grid of `10 ^ ten` lie in the interval of the number? -/
def fits (m : Nat) (e ten : Int) (y : Nat) : Bool :=
  if m % 2 = 0 then
    (quarters m e).1 * (factors (e - 2) ten).1 ≤ y * (factors (e - 2) ten).2
      && y * (factors (e - 2) ten).2 ≤ (quarters m e).2.2 * (factors (e - 2) ten).1
  else
    (quarters m e).1 * (factors (e - 2) ten).1 < y * (factors (e - 2) ten).2
      && y * (factors (e - 2) ten).2 < (quarters m e).2.2 * (factors (e - 2) ten).1

theorem fits_iff (m : Nat) (e ten : Int) (y : Nat) :
    fits m e ten y = true ↔ Covers m e (y * 10 ^ ten) := by
  obtain ⟨hlow, hlow'⟩ := factors_compare (e - 2) ten (quarters m e).1 y
  obtain ⟨hhigh', hhigh⟩ := factors_compare (e - 2) ten (quarters m e).2.2 y
  rw [fits]
  split
  · rename_i heven
    rw [Bool.and_eq_true, decide_eq_true_iff, decide_eq_true_iff, hlow, hhigh]
    constructor
    · rintro ⟨hl, hh⟩
      exact ⟨hl, hh, fun hodd => absurd hodd (by omega)⟩
    · intro h
      exact ⟨h.low, h.high⟩
  · rename_i hodd
    rw [Bool.and_eq_true, decide_eq_true_iff, decide_eq_true_iff, ← not_le, ← not_le, hlow', hhigh',
      not_le, not_le]
    constructor
    · rintro ⟨hl, hh⟩
      exact ⟨hl.le, hh.le, fun _ => ⟨hl, hh⟩⟩
    · intro h
      exact h.inside (by omega)

/-- The greatest digits on the grid that are not above the number. -/
def below (m : Nat) (e ten : Int) : Nat := 4 * m * (factors (e - 2) ten).1 / (factors (e - 2) ten).2

/-- A hit is one of the two neighbours, and there is none only where both lie outside. -/
theorem gridDigits?_cases (m : Nat) (e ten : Int) :
    (∃ y, gridDigits? m e ten = some y ∧ fits m e ten y = true)
      ∨ gridDigits? m e ten = none ∧ fits m e ten (below m e ten) = false
        ∧ fits m e ten (below m e ten + 1) = false := by
  obtain ⟨a, b, hfactors⟩ : ∃ a b, factors (e - 2) ten = (a, b) := ⟨_, _, rfl⟩
  obtain ⟨low, high, hquarters⟩ : ∃ low high, quarters m e = (low, 4 * m, high) := ⟨_, _, rfl⟩
  have hneighbour : below m e ten = 4 * m * a / b := by rw [below, hfactors]
  simp only [hneighbour, fits, gridDigits?, hfactors, hquarters]
  split
  · rename_i hbelow habove
    left
    split
    · exact ⟨_, rfl, hbelow⟩
    split
    · exact ⟨_, rfl, habove⟩
    split
    · exact ⟨_, rfl, hbelow⟩
    · exact ⟨_, rfl, habove⟩
  · rename_i hbelow _
    exact .inl ⟨_, rfl, hbelow⟩
  · rename_i _ habove
    exact .inl ⟨_, rfl, habove⟩
  · rename_i hbelow habove
    exact .inr ⟨rfl, hbelow, habove⟩

/-- The number lies between its two neighbours on the grid. -/
theorem below_bounds (m : Nat) (e ten : Int) :
    (below m e ten : ℚ) * 10 ^ ten ≤ (4 * m : Nat) * 2 ^ (e - 2)
      ∧ ((4 * m : Nat) : ℚ) * 2 ^ (e - 2) ≤ ((below m e ten + 1 : Nat) : ℚ) * 10 ^ ten := by
  rw [← (factors_compare _ _ _ _).1, ← (factors_compare _ _ _ _).2]
  have hpos : 0 < (factors (e - 2) ten).2 :=
    Nat.mul_pos (Nat.pow_pos (by decide)) (Nat.pow_pos (by decide))
  refine ⟨Nat.div_mul_le_self _ _, ?_⟩
  rw [Nat.mul_comm (below m e ten + 1)]
  exact (Nat.lt_mul_div_succ _ hpos).le

theorem covers_of_lt {v : ℚ} (hlow : ((quarters m e).1 : ℚ) * 2 ^ (e - 2) < v)
    (hhigh : v < ((quarters m e).2.2 : ℚ) * 2 ^ (e - 2)) : Covers m e v :=
  ⟨hlow.le, hhigh.le, fun _ => ⟨hlow, hhigh⟩⟩

theorem quarters_lt (hm : 0 < m) (e : Int) : (quarters m e).1 < 4 * m := by
  show (4 * m - if _ then 1 else 2) < 4 * m
  split <;> omega

/-- On a grid finer than the interval one of the neighbours lies in the interval. -/
theorem fits_of_fine (hm : 0 < m)
    (hfine : (10 : ℚ) ^ ten < ((quarters m e).2.2 - (quarters m e).1) * 2 ^ (e - 2)) :
    fits m e ten (below m e ten) = true ∨ fits m e ten (below m e ten + 1) = true := by
  obtain ⟨hleft, hright⟩ := below_bounds m e ten
  have hpow : (0 : ℚ) < 2 ^ (e - 2) := by positivity
  have hlow : ((quarters m e).1 : ℚ) * 2 ^ (e - 2) < (4 * m : Nat) * 2 ^ (e - 2) := by
    gcongr
    exact quarters_lt hm e
  have hhigh : ((4 * m : Nat) : ℚ) * 2 ^ (e - 2) < (quarters m e).2.2 * 2 ^ (e - 2) := by
    gcongr
    show 4 * m < 4 * m + 2
    omega
  -- With both neighbours outside, the whole interval would lie between them.
  rw [fits_iff, fits_iff]
  by_contra hnone
  obtain ⟨hbelow, habove⟩ := not_or.mp hnone
  have hbelow' : (below m e ten : ℚ) * 10 ^ ten ≤ (quarters m e).1 * 2 ^ (e - 2) := by
    by_contra hlt
    exact hbelow (covers_of_lt (not_le.mp hlt) (hleft.trans_lt hhigh))
  have habove' : ((quarters m e).2.2 : ℚ) * 2 ^ (e - 2) ≤ (below m e ten + 1 : Nat) * 10 ^ ten := by
    by_contra hlt
    exact habove (covers_of_lt (hlow.trans_le hright) (not_le.mp hlt))
  push_cast at habove'
  linarith

/-! ## Seventeen digits are enough -/

theorem decimalExponent_le {num den : Nat} (hnum : 0 < num) (hden : 0 < den) :
    (10 : ℚ) ^ decimalExponent num den ≤ num / den := by
  have hden' : (0 : ℚ) < den := by exact_mod_cast hden
  rw [decimalExponent]
  split
  · rename_i hle
    have hquotient : 0 < num / den := Nat.div_pos hle hden
    have hbounds := (decimal_bounds hquotient 0).1
    rw [add_zero, zpow_zero, mul_one] at hbounds
    exact hbounds.trans Nat.cast_div_le
  · rename_i hlt
    -- The denominator is at most the power of ten times the numerator.
    have hpower : (den + num - 1) / num - 1 < 10 ^ decimalLength ((den + num - 1) / num - 1) :=
      (decimalLength_le_iff _ _).mp (le_refl _)
    have hceil : den ≤ 10 ^ decimalLength ((den + num - 1) / num - 1) * num := by
      have hdiv := Nat.lt_mul_div_succ (den + num - 1) hnum
      have hone : 1 ≤ (den + num - 1) / num := Nat.div_pos (by omega) hnum
      have hle : num * ((den + num - 1) / num)
          ≤ num * 10 ^ decimalLength ((den + num - 1) / num - 1) := by
        gcongr
        omega
      rw [Nat.mul_add, Nat.mul_one] at hdiv
      rw [Nat.mul_comm (10 ^ _)]
      omega
    rw [zpow_neg, zpow_natCast, inv_le_iff_one_le_mul₀ (by positivity), div_mul_eq_mul_div,
      one_le_div hden', mul_comm]
    exact_mod_cast hceil

/-- A finite number as a fraction. -/
theorem fraction_eq (m : Nat) (e : Int) : 0 < (fraction m e).2
    ∧ ((fraction m e).1 : ℚ) / (fraction m e).2 = m * 2 ^ e := by
  cases e with
  | ofNat e =>
    refine ⟨Nat.one_pos, ?_⟩
    show ((m * 2 ^ e : Nat) : ℚ) / (1 : Nat) = m * 2 ^ (e : Int)
    rw [Nat.cast_one, div_one, Nat.cast_mul, zpow_natCast, Nat.cast_pow]
    rfl
  | negSucc e =>
    refine ⟨Nat.two_pow_pos _, ?_⟩
    show (m : ℚ) / ((2 ^ (e + 1) : Nat) : ℚ) = m * 2 ^ Int.negSucc e
    rw [zpow_negSucc, div_eq_mul_inv, Nat.cast_pow]
    rfl

/-- The grid of seventeen digits is finer than the interval. -/
theorem fine_of_seventeen (hm : 0 < m) (hfew : m < 2 ^ 53) {top : Int}
    (htop : (10 : ℚ) ^ top ≤ m * 2 ^ e) :
    (10 : ℚ) ^ (top - 16) < ((quarters m e).2.2 - (quarters m e).1) * 2 ^ (e - 2) := by
  have hpow : (0 : ℚ) < 2 ^ (e - 2) := by positivity
  have hwidth : (4 * m : ℚ) < 10 ^ 16 * ((quarters m e).2.2 - (quarters m e).1) := by
    have hlow : 4 * m < 10 ^ 16 * (4 * m + 2 - (quarters m e).1) := by
      show 4 * m < 10 ^ 16 * (4 * m + 2 - (4 * m - if m = 2 ^ 52 ∧ _ then 1 else 2))
      split <;> omega
    have hle : (quarters m e).1 ≤ (quarters m e).2.2 := by
      have := quarters_lt hm e
      show (quarters m e).1 ≤ 4 * m + 2
      omega
    rw [← Nat.cast_sub hle]
    exact_mod_cast hlow
  have hscale : (10 : ℚ) ^ top = 10 ^ 16 * 10 ^ (top - 16) := by
    rw [← zpow_natCast, ← zpow_add₀ (by norm_num)]
    congr 1
    push_cast
    ring
  rw [hscale, quarter e] at htop
  nlinarith

/-- By induction on the grids that are left: a hit among them is reached. -/
theorem firstHit_covers {top : Int} {fuel count : Nat}
    (h : ∃ k < fuel, gridDigits? m e (top - (count + k : Nat)) ≠ none) :
    Covers m e ((firstHit m e top fuel count).1 * 10 ^ (firstHit m e top fuel count).2) := by
  induction fuel generalizing count with
  | zero =>
    obtain ⟨k, hk, _⟩ := h
    cases hk
  | succ fuel ih =>
    rw [firstHit]
    rcases gridDigits?_cases m e (top - count) with ⟨y, hy, hfits⟩ | ⟨hnone, _⟩
    · rw [hy]
      exact (fits_iff m e _ y).mp hfits
    · rw [hnone]
      apply ih
      obtain ⟨k, hk, hhit⟩ := h
      cases k with
      | zero => exact absurd hnone hhit
      | succ k =>
        refine ⟨k, by omega, ?_⟩
        rwa [Nat.add_right_comm]

/-- The digits that are written lie where they are rounded to the number. -/
theorem shortest_covers (hm : 0 < m) (hcanonical : Canonical m e) :
    Covers m e ((shortest m e).1 * 10 ^ (shortest m e).2) := by
  obtain ⟨hden, hvalue⟩ := fraction_eq m e
  have hnum : 0 < (fraction m e).1 := by
    have hpos : (0 : ℚ) < (fraction m e).1 / (fraction m e).2 := by
      rw [hvalue]
      positivity
    rw [div_pos_iff_of_pos_right (by exact_mod_cast hden)] at hpos
    exact_mod_cast hpos
  have htop := decimalExponent_le hnum hden
  rw [hvalue] at htop
  refine firstHit_covers ⟨16, by decide, ?_⟩
  intro hnone
  have hfine := fine_of_seventeen hm hcanonical.1 htop
  rcases gridDigits?_cases m e (decimalExponent (fraction m e).1 (fraction m e).2 - 16) with
    ⟨y, hy, _⟩ | ⟨_, hbelow, habove⟩
  · exact absurd (hy.symm.trans hnone) nofun
  · rcases fits_of_fine hm hfine with hfits | hfits
    · exact absurd (hfits.symm.trans hbelow) nofun
    · exact absurd (hfits.symm.trans habove) nofun

theorem shortest_pos (hm : 0 < m) (hcanonical : Canonical m e) : 0 < (shortest m e).1 :=
  ((shortest_covers hm hcanonical).magnitude hm hcanonical).1

end GalleryScan.Double
