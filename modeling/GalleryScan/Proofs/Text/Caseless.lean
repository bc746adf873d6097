import GalleryScan.Text.Caseless

/-!
# Texts that are the same but for case

Texts are compared letter by letter, so those that are the same but for case are of one length, are
so piece by piece, and have for every letter of the one the same letter in the other.
-/

set_option autoImplicit false

namespace GalleryScan.Text

variable {s t u v : Text}

theorem sameLetters_refl (t : Text) : t.sameLetters t = true := by
  induction t with
  | nil => rfl
  | cons c t ih => simp [sameLetters, CodePoint.sameLetter_refl, ih]

theorem sameLetters_length (h : s.sameLetters t = true) : s.length = t.length := by
  fun_induction sameLetters s t with
  | case1 => rfl
  | case2 c s d t ih =>
    rw [Bool.and_eq_true] at h
    rw [List.length_cons, List.length_cons, ih h.2]
  | case3 => cases h

theorem sameLetters_append (h : s.sameLetters t = true) (h' : u.sameLetters v = true) :
    sameLetters (s ++ u) (t ++ v) = true := by
  fun_induction sameLetters s t with
  | case1 => exact h'
  | case2 c s d t ih =>
    rw [Bool.and_eq_true] at h
    simp [sameLetters, h.1, ih h.2]
  | case3 => cases h

theorem mem_of_sameLetters (h : s.sameLetters t = true) {c : CodePoint} (hc : c ∈ s) :
    ∃ d ∈ t, c.sameLetter d = true := by
  fun_induction sameLetters s t with
  | case1 => cases hc
  | case2 c' s d t ih =>
    rw [Bool.and_eq_true] at h
    rcases List.mem_cons.mp hc with rfl | hc
    · exact ⟨d, List.mem_cons_self .., h.1⟩
    · obtain ⟨d', hd', hsame⟩ := ih h.2 hc
      exact ⟨d', List.mem_cons_of_mem d hd', hsame⟩
  | case3 => cases h

end GalleryScan.Text
