import GalleryScan.Text.Blank
import Mathlib.Data.List.TakeWhile

/-!
# Pieces of texts

A text is cut at a separator and trimmed at its ends. Cutting undoes joining where the separator is
in no piece:

> `splitOn sep (join [sep] ps) = ps`

and trimming leaves what neither begins nor ends with anything to trim, so it does nothing twice.
-/

set_option autoImplicit false

namespace GalleryScan.Text

/-! ## Cut where they were joined -/

section Cutting

variable {sep : CodePoint} {p : Text}

theorem splitOn_append_separator (sep : CodePoint) (p q : Text) :
    splitOn sep (p ++ sep :: q) = splitOn sep p ++ splitOn sep q := by
  induction p with
  | nil => simp [splitOn]
  | cons c p ih =>
    by_cases hc : c = sep
    · simp [splitOn, hc, ih]
    · cases hp : splitOn sep p with
      | nil => exact absurd hp (splitOn_ne_nil sep p)
      | cons x xs =>
        rw [List.cons_append, splitOn, if_neg hc, ih, hp, splitOn, if_neg hc, hp]
        rfl

theorem splitOn_of_notMem (h : sep ∉ p) : splitOn sep p = [p] := by
  induction p with
  | nil => rfl
  | cons c p ih =>
    rw [List.mem_cons, not_or] at h
    rw [splitOn, if_neg (Ne.symm h.1), ih h.2]

theorem splitOn_join {ps : List Text} (hne : ps ≠ []) (h : ∀ p ∈ ps, sep ∉ p) :
    splitOn sep (join [sep] ps) = ps := by
  induction ps with
  | nil => exact absurd rfl hne
  | cons p ps ih =>
    have hp : sep ∉ p := h p (List.mem_cons_self ..)
    cases ps with
    | nil => exact splitOn_of_notMem hp
    | cons q qs =>
      have hrest := ih (List.cons_ne_nil q qs) fun r hr => h r (List.mem_cons_of_mem p hr)
      rw [join, List.append_assoc, List.singleton_append, splitOn_append_separator,
        splitOn_of_notMem hp, hrest]
      rfl

theorem cut_append_separator (h : sep ∉ p) (t : Text) : cut sep (p ++ sep :: t) = (p, some t) := by
  induction p with
  | nil => simp [cut]
  | cons c p ih =>
    rw [List.mem_cons, not_or] at h
    rw [List.cons_append, cut, if_neg (Ne.symm h.1), ih h.2]

theorem cut_of_notMem (h : sep ∉ p) : cut sep p = (p, none) := by
  induction p with
  | nil => rfl
  | cons c p ih =>
    rw [List.mem_cons, not_or] at h
    rw [cut, if_neg (Ne.symm h.1), ih h.2]

/-- A joined text holds the signs of its pieces and the separator. -/
theorem mem_join {ps : List Text} {c : CodePoint} (h : c ∈ join [sep] ps) :
    c = sep ∨ ∃ p ∈ ps, c ∈ p := by
  induction ps with
  | nil => cases h
  | cons p ps ih =>
    cases ps with
    | nil => exact .inr ⟨p, List.mem_cons_self .., h⟩
    | cons q qs =>
      rw [join, List.mem_append, List.mem_append, List.mem_singleton] at h
      rcases h with (h | h) | h
      · exact .inr ⟨p, List.mem_cons_self .., h⟩
      · exact .inl h
      · rcases ih h with h | ⟨r, hr, hc⟩
        · exact .inl h
        · exact .inr ⟨r, List.mem_cons_of_mem p hr, hc⟩

end Cutting

/-! ## Trimmed at both ends -/

section Trimming

variable {out : CodePoint → Bool} {t w : Text} {c : CodePoint}

theorem dropWhile_of_head (h : ∀ c ∈ t.head?, out c = false) : t.dropWhile out = t := by
  cases t with
  | nil => rfl
  | cons c t =>
    have hc : ¬ out c = true := Bool.eq_false_iff.mp (h c rfl)
    exact List.dropWhile_cons_of_neg hc

theorem out_of_head_dropWhile (h : c ∈ (t.dropWhile out).head?) : out c = false := by
  have hhead := List.head?_dropWhile_not out t
  rw [Option.mem_def.mp h] at hhead
  exact hhead

/-- Nothing is trimmed from a text that neither begins nor ends with anything to trim. -/
theorem trim_of_ends (hfront : ∀ c ∈ t.head?, out c = false)
    (hback : ∀ c ∈ t.getLast?, out c = false) : t.trim out = t := by
  rw [← List.head?_reverse] at hback
  rw [trim, dropWhile_of_head hfront, dropWhile_of_head hback, List.reverse_reverse]

theorem out_of_head_trim (h : c ∈ (t.trim out).head?) : out c = false := by
  have hprefix : t.trim out <+: t.dropWhile out := by
    have hsuffix := List.reverse_prefix.mpr
      (List.dropWhile_suffix out (l := (t.dropWhile out).reverse))
    rwa [List.reverse_reverse] at hsuffix
  apply out_of_head_dropWhile (t := t)
  obtain ⟨rest, hrest⟩ := hprefix
  rw [← hrest, List.head?_append, Option.mem_def.mp h]
  rfl

theorem out_of_last_trim (h : c ∈ (t.trim out).getLast?) : out c = false := by
  rw [trim, List.getLast?_reverse] at h
  exact out_of_head_dropWhile h

theorem trim_trim (out : CodePoint → Bool) (t : Text) : (t.trim out).trim out = t.trim out :=
  trim_of_ends (fun _ => out_of_head_trim) fun _ => out_of_last_trim

theorem mem_of_mem_trim (h : c ∈ t.trim out) : c ∈ t := by
  have hback := (List.dropWhile_suffix out).mem (List.mem_reverse.mp h)
  exact (List.dropWhile_suffix out).mem (List.mem_reverse.mp hback)

/-- What neither begins nor ends with anything to trim stays at the end. -/
theorem trim_append (hne : w ≠ []) (hfront : ∀ c ∈ w.head?, out c = false)
    (hback : ∀ c ∈ w.getLast?, out c = false) (t : Text) :
    (t ++ w).trim out = t.dropWhile out ++ w := by
  have hstart : (t ++ w).dropWhile out = t.dropWhile out ++ w := by
    rw [List.dropWhile_append]
    split
    · rename_i hnone
      rw [List.isEmpty_iff.mp hnone, dropWhile_of_head hfront, List.nil_append]
    · rfl
  have hend : ∀ c ∈ (t.dropWhile out ++ w).reverse.head?, out c = false := by
    rw [List.getLast?_eq_some_getLast hne] at hback
    rw [List.head?_reverse, List.getLast?_append, List.getLast?_eq_some_getLast hne, Option.some_or]
    exact hback
  rw [trim, hstart, dropWhile_of_head hend, List.reverse_reverse]

end Trimming

/-! ## Blanks at both ends -/

section Blanks

variable {t w : Text} {b : CodePoint}

theorem strip_cons_blank (hb : b.isBlank = true) (t : Text) : Text.strip (b :: t) = t.strip := by
  simp [Text.strip, Text.trim, hb]

theorem strip_append_blank (hb : b.isBlank = true) (t : Text) :
    Text.strip (t ++ [b]) = t.strip := by
  simp only [Text.strip, Text.trim, List.dropWhile_append]
  split
  · rename_i h
    simp [List.isEmpty_iff.mp h, hb]
  · simp [hb]

theorem strip_eq_nil (h : ∀ c ∈ t, c.isBlank = true) : t.strip = [] := by
  rw [strip, trim, List.dropWhile_eq_nil_iff.mpr h]
  rfl

theorem isBlank_of_strip (h : t.strip = []) : ∀ c ∈ t, c.isBlank = true := by
  intro c hc
  rw [← List.takeWhile_append_dropWhile (p := CodePoint.isBlank) (l := t), List.mem_append] at hc
  rcases hc with hfront | hback
  · exact List.mem_takeWhile_imp hfront
  · exact List.dropWhile_eq_nil_iff.mp (List.reverse_eq_nil_iff.mp h) c
      (List.mem_reverse.mpr hback)

theorem strip_append_word (hne : w ≠ []) (hw : ∀ c ∈ w, c.isBlank = false) (t : Text) :
    strip (t ++ w) = t.dropWhile CodePoint.isBlank ++ w :=
  trim_append hne (fun c hc => hw c (List.mem_of_head? hc))
    (fun c hc => hw c (List.mem_of_getLast? hc)) t

/-- A text is what stripping leaves of it, between blanks. -/
theorem exists_strip (t : Text) : ∃ b e, t = b ++ t.strip ++ e ∧
    (∀ c ∈ b, c.isBlank = true) ∧ ∀ c ∈ e, c.isBlank = true := by
  refine ⟨t.takeWhile CodePoint.isBlank,
    ((t.dropWhile CodePoint.isBlank).reverse.takeWhile CodePoint.isBlank).reverse, ?_, ?_, ?_⟩
  · rw [List.append_assoc, strip, trim, ← List.reverse_append, List.takeWhile_append_dropWhile,
      List.reverse_reverse, List.takeWhile_append_dropWhile]
  · exact fun c hc => List.mem_takeWhile_imp hc
  · exact fun c hc => List.mem_takeWhile_imp (List.mem_reverse.mp hc)

end Blanks

end GalleryScan.Text
