import GalleryScan.Proofs.Text.Utf8
import GalleryScan.Text.Blank
import GalleryScan.Text.Caseless
import GalleryScan.Text.Digit
import GalleryScan.Text.Word
import Mathlib.Data.List.Forall2

/-!
# Texts in lower case

Texts that differ in the case of ASCII letters are the same in lower case. What is the same for the
two cases of each of the 26 letters is the same for a code point and its lower case:

> `(∀ n < 26, f (ofNat (97 + n)) = f (ofNat (65 + n))) → f c.lower = f c`

So lowering a text moves neither its blanks nor its digits and words, and it can be done before or
after the text is trimmed and cut.
-/

set_option autoImplicit false

namespace GalleryScan

namespace CodePoint

/-- The lower case of an ASCII letter; any other code point is its own. -/
def lower (c : CodePoint) : CodePoint :=
  if 65 ≤ c.val ∧ c.val ≤ 90 then ofNat (c.val + 32) else c

theorem lower_congr {β : Type} {f : CodePoint → β}
    (h : ∀ n < 26, f (ofNat (97 + n)) = f (ofNat (65 + n))) (c : CodePoint) : f c.lower = f c := by
  unfold lower
  split
  · rename_i hupper
    have hletter := h (c.val - 65) (by omega)
    rwa [show 97 + (c.val - 65) = c.val + 32 by omega, show 65 + (c.val - 65) = c.val by omega,
      ofNat_val] at hletter
  · rfl

theorem isBlank_lower (c : CodePoint) : c.lower.isBlank = c.isBlank := lower_congr (by decide) c

theorem isDecimal_lower (c : CodePoint) : c.lower.isDecimal = c.isDecimal :=
  lower_congr (by decide) c

theorem isWord_lower (c : CodePoint) : c.lower.isWord = c.isWord := lower_congr (by decide) c

theorem caseless_lower (c : CodePoint) : c.lower.caseless = c.caseless := lower_congr (by decide) c

theorem sameLetter_lower (c d : CodePoint) : c.lower.sameLetter d.lower = c.sameLetter d := by
  rw [sameLetter, caseless_lower, caseless_lower, sameLetter]

/-- A sign that is no letter is the lower case of nothing else. -/
theorem lower_eq_iff {d : CodePoint}
    (h : ∀ n < 26, decide (ofNat (97 + n) = d) = decide (ofNat (65 + n) = d)) (c : CodePoint) :
    c.lower = d ↔ c = d :=
  decide_eq_decide.mp (lower_congr (f := fun c => decide (c = d)) h c)

/-- The same code point, or an ASCII letter in its other case. -/
def Recased (c d : CodePoint) : Prop :=
  c = d ∨ (65 ≤ c.val ∧ c.val ≤ 90 ∧ d.val = c.val + 32)
    ∨ (65 ≤ d.val ∧ d.val ≤ 90 ∧ c.val = d.val + 32)

instance (c d : CodePoint) : Decidable (Recased c d) := inferInstanceAs (Decidable (_ ∨ _))

theorem lower_of_upper {c d : CodePoint} (hlow : 65 ≤ c.val) (hhigh : c.val ≤ 90)
    (hd : d.val = c.val + 32) : c.lower = d.lower := by
  rw [lower, if_pos ⟨hlow, hhigh⟩, ← hd, ofNat_val, lower, if_neg (by omega)]

theorem Recased.lower {c d : CodePoint} (h : c.Recased d) : c.lower = d.lower := by
  rcases h with rfl | ⟨hlow, hhigh, hval⟩ | ⟨hlow, hhigh, hval⟩
  · rfl
  · exact lower_of_upper hlow hhigh hval
  · exact (lower_of_upper hlow hhigh hval).symm

end CodePoint

namespace Text

/-- The same text, but for the case of any of its ASCII letters. -/
def Recased (s t : Text) : Prop := List.Forall₂ CodePoint.Recased s t

instance (s t : Text) : Decidable (Recased s t) :=
  inferInstanceAs (Decidable (List.Forall₂ CodePoint.Recased s t))

theorem lowered_eq (t : Text) : t.lowered = t.map CodePoint.lower := rfl

theorem lowered_cons (c : CodePoint) (t : Text) : Text.lowered (c :: t) = c.lower :: t.lowered :=
  rfl

theorem lowered_reverse (t : Text) : Text.lowered t.reverse = t.lowered.reverse := List.map_reverse

theorem Recased.lowered {s t : Text} (h : s.Recased t) : s.lowered = t.lowered := by
  induction h with
  | nil => rfl
  | cons hc _ ih => rw [lowered_cons, lowered_cons, hc.lower, ih]

/-! ## Pieces of a text -/

section Test

variable {p : CodePoint → Bool} (hp : ∀ c, p c.lower = p c)

include hp

theorem dropWhile_lowered (t : Text) : t.lowered.dropWhile p = Text.lowered (t.dropWhile p) := by
  rw [lowered_eq, List.dropWhile_map, show p ∘ CodePoint.lower = p from funext hp, lowered_eq]

theorem takeWhile_lowered (t : Text) : t.lowered.takeWhile p = Text.lowered (t.takeWhile p) := by
  rw [lowered_eq, List.takeWhile_map, show p ∘ CodePoint.lower = p from funext hp, lowered_eq]

theorem trim_lowered (t : Text) : t.lowered.trim p = Text.lowered (t.trim p) := by
  rw [trim, dropWhile_lowered hp, ← lowered_reverse, dropWhile_lowered hp, ← lowered_reverse, trim]

end Test

theorem strip_lowered (t : Text) : t.lowered.strip = t.strip.lowered :=
  trim_lowered CodePoint.isBlank_lower t

theorem isBlank_lowered (t : Text) : t.lowered.isBlank = t.isBlank := by
  rw [isBlank, lowered_eq, List.all_map, isBlank]
  exact congrArg t.all (funext CodePoint.isBlank_lower)

theorem lowered_eq_nil_iff {t : Text} : t.lowered = [] ↔ t = [] := List.map_eq_nil_iff

theorem sameLetters_lowered (s t : Text) : s.lowered.sameLetters t = s.sameLetters t := by
  induction s generalizing t with
  | nil => rfl
  | cons c s ih =>
    cases t with
    | nil => rfl
    | cons d t =>
      rw [lowered_cons, sameLetters, sameLetters, CodePoint.sameLetter, CodePoint.caseless_lower, ih,
        CodePoint.sameLetter]

theorem splitOn_lowered {sep : CodePoint} (hsep : ∀ c : CodePoint, c.lower = sep ↔ c = sep)
    (t : Text) : t.lowered.splitOn sep = (t.splitOn sep).map Text.lowered := by
  induction t with
  | nil => rfl
  | cons c t ih =>
    rw [lowered_cons, splitOn, splitOn, ih]
    by_cases hc : c = sep
    · rw [if_pos ((hsep c).mpr hc), if_pos hc]
      rfl
    · rw [if_neg (mt (hsep c).mp hc), if_neg hc]
      cases splitOn sep t <;> rfl

end Text

end GalleryScan
