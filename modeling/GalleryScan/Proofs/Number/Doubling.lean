import GalleryScan.Number.Amount
import GalleryScan.Proofs.Number.Shortest

/-!
# Doubling

A number that is doubled is not rounded: the product has 53 bits as the number has, with a greater
exponent or, among the least numbers, with a greater mantissa. Only the range ends somewhere, and
beyond it the product is infinite:

> `Doubled times x (x.scale times)`

So the pauses between retries are exact, and one that begins within the range can be shown however
often it is doubled.
-/

set_option autoImplicit false

namespace GalleryScan

namespace Double

/-- The second number is the first one times a power of two, or infinite where the product is beyond
the range. -/
inductive Doubled (times : Nat) : Double → Double → Prop where
  | nan : Doubled times .nan .nan
  | infinity (negative : Bool) : Doubled times (.infinity negative) (.infinity negative)
  | finite (negative : Bool) (m m' : Nat) (e e' : Int) (h : Canonical m e) (h' : Canonical m' e')
      (exact : (m' : ℚ) * 2 ^ e' = m * 2 ^ e * 2 ^ times) :
      Doubled times (.finite negative m e h) (.finite negative m' e' h')
  | beyond (negative : Bool) (m : Nat) (e : Int) (h : Canonical m e)
      (large : (2 : ℚ) ^ 1024 ≤ m * 2 ^ e * 2 ^ times) :
      Doubled times (.finite negative m e h) (.infinity negative)

/-- The form of a finite number, but for the greatest exponent. -/
structure Normal (m : Nat) (e : Int) : Prop where
  few : m < 2 ^ 53
  least : -1074 ≤ e
  full : 2 ^ 52 ≤ m ∨ e = -1074

variable {num den m : Nat} {e : Int}

theorem Canonical.normal (h : Canonical m e) : Normal m e := ⟨h.1, h.2.1, h.2.2.2⟩

theorem Normal.canonical (h : Normal m e) (hmost : e ≤ 971) : Canonical m e :=
  ⟨h.few, h.least, hmost, h.full⟩

/-- By induction on how often: a full mantissa leaves the doubling to the exponent, and one that is
not full is doubled itself. -/
theorem Normal.doubled (h : Normal m e) (times : Nat) :
    ∃ m' e', Normal m' e' ∧ (m' : ℚ) * 2 ^ e' = m * 2 ^ e * 2 ^ times := by
  induction times with
  | zero => exact ⟨m, e, h, by rw [pow_zero, mul_one]⟩
  | succ times ih =>
    obtain ⟨m', e', hnormal, hvalue⟩ := ih
    have hleast := hnormal.least
    have hfew := hnormal.few
    by_cases hfull : 2 ^ 52 ≤ m'
    · refine ⟨m', e' + 1, ⟨hfew, by omega, .inl hfull⟩, ?_⟩
      rw [zpow_add_one₀ two_ne_zero, ← mul_assoc, hvalue, pow_succ, mul_assoc _ _ (2 : ℚ)]
    · refine ⟨2 * m', e', ⟨by omega, hleast, .inr (hnormal.full.resolve_left hfull)⟩, ?_⟩
      rw [Nat.cast_mul, Nat.cast_ofNat, mul_assoc, hvalue, pow_succ]
      ring

/-- A fraction of this form is the number of this form, with nothing to round. -/
theorem Normal.nearest (h : Normal m e) (hm : 0 < m) (hden : 0 < den)
    (hvalue : (num : ℚ) / den = m * 2 ^ e) (negative : Bool) :
    nearest negative num den = make negative m e := by
  have hpow : (0 : ℚ) < 2 ^ e := by positivity
  have hm' : (0 : ℚ) < m := by exact_mod_cast hm
  have hnum : 0 < num := by
    have hpos : (0 : ℚ) < num / den := hvalue ▸ mul_pos hm' hpow
    rw [div_pos_iff_of_pos_right (by exact_mod_cast hden)] at hpos
    exact_mod_cast hpos
  have hexponent : exponentFor num den = e := by
    refine (scales_exponentFor hnum hden).unique ⟨h.least, ?_, ?_⟩
    · rw [hvalue]
      gcongr
      exact_mod_cast h.few
    · refine h.full.symm.imp id fun hfull => ?_
      rw [hvalue]
      gcongr
      exact_mod_cast hfull
  obtain ⟨hpos, hunits⟩ := inUnits_eq num hden e
  have hround : roundQuotient (inUnits num den e).1 (inUnits num den e).2 = m := by
    rw [hvalue, mul_div_assoc, div_self hpow.ne', mul_one] at hunits
    apply roundQuotient_eq hpos
    all_goals
      rw [hunits]
    · linarith
    · linarith
    · exact fun _ => ⟨by linarith, by linarith⟩
  rw [Double.nearest, if_neg hnum.ne']
  dsimp only
  rw [hexponent, hround, if_neg (show m ≠ Nat.pow 2 53 from h.few.ne)]

theorem nearest_zero (negative : Bool) (den : Nat) : nearest negative 0 den = zero negative :=
  if_pos rfl

theorem doubled_scale (x : Double) (times : Nat) : Doubled times x (x.scale times) := by
  cases x with
  | nan => exact .nan
  | infinity negative => exact .infinity negative
  | finite negative m e h =>
    obtain ⟨hden, hfraction⟩ := fraction_eq m e
    show Doubled times _ (nearest negative ((fraction m e).1 * 2 ^ times) (fraction m e).2)
    have hscaled : (((fraction m e).1 * 2 ^ times : Nat) : ℚ) / (fraction m e).2
        = m * 2 ^ e * 2 ^ times := by
      rw [← hfraction]
      push_cast
      ring
    rcases Nat.eq_zero_or_pos m with rfl | hm
    · -- Zero stays zero, and keeps its sign.
      have hzero : (fraction 0 e).1 * 2 ^ times = 0 := by
        cases e <;> simp [fraction]
      rw [hzero, nearest_zero]
      exact .finite negative 0 0 e (-1074) h (by decide) (by simp)
    obtain ⟨m', e', hnormal, hvalue⟩ := h.normal.doubled times
    have hm' : 0 < m' := by
      have hpos : (0 : ℚ) < m' * 2 ^ e' := by
        have hm₁ : (0 : ℚ) < m := by exact_mod_cast hm
        rw [hvalue]
        positivity
      rw [mul_pos_iff_of_pos_right (by positivity)] at hpos
      exact_mod_cast hpos
    rw [hnormal.nearest hm' hden (hscaled.trans hvalue.symm)]
    by_cases hmost : e' ≤ 971
    · rw [make_of_canonical (hnormal.canonical hmost)]
      exact .finite negative m m' e e' h _ hvalue
    · rw [make, dif_neg fun hcanonical => hmost hcanonical.2.2.1]
      refine .beyond negative m e h ?_
      have hfull : (2 : ℚ) ^ 52 ≤ m' := by
        exact_mod_cast hnormal.full.resolve_right (by omega)
      calc (2 : ℚ) ^ 1024 = 2 ^ 52 * 2 ^ (972 : Int) := by
            rw [two_pow_add, ← zpow_natCast]
            rfl
        _ ≤ (m' : ℚ) * 2 ^ e' := by
          gcongr
          · exact one_le_two
          · omega
        _ = m * 2 ^ e * 2 ^ times := hvalue

end Double

namespace Amount

/-- The second amount is the first one times a power of two. -/
inductive Doubled (times : Nat) : Amount → Amount → Prop where
  | whole (n : Int) : Doubled times (.whole n) (.whole (n * 2 ^ times))
  | real (x y : Double) (h : x.Doubled times y) : Doubled times (.real x) (.real y)

/-- The amount is a number with a point, or a whole one no greater than those are. -/
def InRange : Amount → Prop
  | whole n => n.natAbs < 2 ^ powerLimit
  | real _ => True

variable {a : Amount} {times : Nat}

/-- Within the bound of the powers of two every amount can be doubled. -/
theorem exists_doubled (a : Amount) (h : times < powerLimit) :
    ∃ b, a.doubled? times = some b ∧ Doubled times a b := by
  cases a with
  | whole n => exact ⟨_, rfl, .whole n⟩
  | real x => exact ⟨_, if_pos h, .real x _ (x.doubled_scale times)⟩

theorem mul_two_pow_lt {n k : Nat} (hn : n < 2 ^ k) (htimes : times ≤ k) :
    n * 2 ^ times < 10 ^ (k + k) :=
  calc n * 2 ^ times < 2 ^ k * 2 ^ k :=
        Nat.mul_lt_mul_of_lt_of_le hn (Nat.pow_le_pow_right (by decide) htimes)
          (Nat.two_pow_pos _)
    _ = 2 ^ (k + k) := (Nat.pow_add 2 k k).symm
    _ ≤ 10 ^ (k + k) := Nat.pow_le_pow_left (by decide) _

/-- An amount in the range does not get too many digits to be shown. -/
theorem InRange.isShowable (h : a.InRange) (htimes : times < powerLimit) {b : Amount}
    (hb : Doubled times a b) : b.isShowable = true := by
  cases hb with
  | real x y h => rfl
  | whole n =>
    rw [isShowable, decide_eq_true_eq, Double.decimalLength_le_iff, Int.natAbs_mul,
      Int.natAbs_pow]
    exact (mul_two_pow_lt h htimes.le).trans_le (Nat.pow_le_pow_right (by decide) (by decide))

end Amount

end GalleryScan
