import GalleryScan.Proofs.Query.Separation
import Mathlib.Data.List.DropRight

/-!
# Free text

Between two separators `scan` holds text in hand that it has passed sign by sign: at none of its
places did a separator begin. `Undivided` says so of a text and of what follows it. A term is such a
text without the blanks around it, and being cut off from what followed does not make a separator
of any part of it, so every term is undivided by itself: no parenthesis is in it, and none of its
words spells a keyword. An undivided text is given back as one term, which is what quotes rely on.
-/

set_option autoImplicit false

namespace GalleryScan

namespace Token

/-! ## Words and separators -/

theorem isEdge_of_isBlank {b : CodePoint} (hb : b.isBlank = true) : isEdge b = true := by
  simp [isEdge, hb]

theorem isEdge_firstWord {t : Text} {c : CodePoint} (hc : c ∈ firstWord t) : isEdge c = false := by
  simpa using List.mem_takeWhile_imp hc

theorem isBlank_firstWord {t : Text} {c : CodePoint} (hc : c ∈ firstWord t) :
    c.isBlank = false := by
  have hedge := isEdge_firstWord hc
  simp only [isEdge, Bool.or_eq_false_iff] at hedge
  exact hedge.1.1

theorem firstWord_cons {c : CodePoint} (hc : isEdge c = false) (t : Text) :
    firstWord (c :: t) = c :: firstWord t :=
  List.takeWhile_cons_of_pos (by simp [hc])

theorem firstWord_append_rest {c : CodePoint} (hc : isEdge c = false) (t : Text) :
    firstWord (c :: t) ++ t.dropWhile (!isEdge ·) = c :: t := by
  rw [firstWord_cons hc, List.cons_append]
  exact congrArg (c :: ·) List.takeWhile_append_dropWhile

theorem firstWord_edge {c : CodePoint} (hc : isEdge c = true) (t : Text) :
    firstWord (c :: t) = [] :=
  List.takeWhile_cons_of_neg (by simp [hc])

theorem firstWord_of_head {t : Text} (h : ∀ c ∈ t.head?, isEdge c = true) : firstWord t = [] := by
  cases t with
  | nil => rfl
  | cons c t => exact firstWord_edge (h c rfl) t

theorem firstWord_append {w : Text} (hw : ∀ c ∈ w, isEdge c = false) (t : Text) :
    firstWord (w ++ t) = w ++ firstWord t :=
  List.takeWhile_append_of_pos (by simpa using hw)

/-- The first word is over at an edge. -/
theorem firstWord_append_edge {v : Text} {c : CodePoint} (hc : c ∈ v) (hedge : isEdge c = true)
    (t : Text) : firstWord (v ++ t) = firstWord v := by
  induction v with
  | nil => cases hc
  | cons d v ih =>
    cases hd : isEdge d with
    | true => rw [List.cons_append, firstWord_edge hd, firstWord_edge hd]
    | false =>
      have hcv : c ∈ v := by
        rcases List.mem_cons.mp hc with rfl | hcv
        · simp [hedge] at hd
        · exact hcv
      rw [List.cons_append, firstWord_cons hd, firstWord_cons hd, ih hcv]

/-- The first word ends before an edge that follows the text. -/
theorem firstWord_append_of_head (v : Text) {t : Text} (ht : ∀ c ∈ t.head?, isEdge c = true) :
    firstWord (v ++ t) = firstWord v := by
  by_cases hv : ∃ c ∈ v, isEdge c = true
  · obtain ⟨c, hc, hedge⟩ := hv
    exact firstWord_append_edge hc hedge t
  · have hword : ∀ c ∈ v, isEdge c = false := by
      intro c hc
      exact Bool.eq_false_iff.mpr fun hedge => hv ⟨c, hc, hedge⟩
    have hself := firstWord_append hword []
    rw [firstWord_append hword, firstWord_of_head ht]
    simpa [firstWord] using hself.symm

theorem ofWord?_nil : ofWord? [] = none := rfl

theorem ofWord?_eq_some {w : Text} {k : Token} (h : ofWord? w = some k) :
    k.isKeyword = true ∧ w.sameLetters k.text = true := by
  unfold ofWord? at h
  split at h
  · cases h
    exact ⟨rfl, ‹_›⟩
  · split at h
    · cases h
      exact ⟨rfl, ‹_›⟩
    · split at h
      · cases h
        exact ⟨rfl, ‹_›⟩
      · cases h

theorem separator?_eq_none_iff {atEdge : Bool} {c : CodePoint} {t : Text} :
    separator? atEdge (c :: t) = none ↔ c ≠ .scalar '(' ∧ c ≠ .scalar ')' ∧
      (atEdge = true → ofWord? (firstWord (c :: t)) = none) := by
  rw [separator?]
  split
  · simp_all
  · split
    · simp_all
    · cases atEdge <;> simp_all

theorem separator?_blank {b : CodePoint} (hb : b.isBlank = true) (atEdge : Bool) (t : Text) :
    separator? atEdge (b :: t) = none := by
  have hne : ∀ p : Char, CodePoint.isBlank (.scalar p) = false → b ≠ .scalar p := by
    rintro p hp rfl
    simp [hp] at hb
  refine separator?_eq_none_iff.mpr ⟨hne '(' rfl, hne ')' rfl, ?_⟩
  rw [firstWord_edge (isEdge_of_isBlank hb)]
  exact fun _ => ofWord?_nil

/-- What stands before an edge makes no difference there. -/
theorem separator?_edge {t : Text} (ht : ∀ c ∈ t.head?, isEdge c = true) (atEdge : Bool) :
    separator? atEdge t = separator? true t := by
  cases t with
  | nil => rfl
  | cons c t =>
    simp [separator?, firstWord_edge (ht c rfl), ofWord?_nil]

theorem scan_congr {a b : Bool} {t : Text} (h : separator? a t = separator? b t) (held : Text) :
    scan a held t = scan b held t := by
  cases hsep : separator? b t with
  | some x => rw [scan_separator (h.trans hsep), scan_separator hsep]
  | none =>
    cases t with
    | nil => rw [scan_nil, scan_nil]
    | cons c t => rw [scan_free (h.trans hsep), scan_free hsep]

theorem isEdge_head_dropWhile (t : Text) :
    ∀ c ∈ (t.dropWhile (!isEdge ·)).head?, isEdge c = true := by
  intro c hc
  have h := List.head?_dropWhile_not (!isEdge ·) t
  rw [Option.mem_def.mp hc] at h
  simpa using h

/-- A separator spells its token, and a keyword is followed by an edge. -/
theorem separator?_eq_some {atEdge : Bool} {t r : Text} {k : Token}
    (h : separator? atEdge t = some (k, r)) :
    ∃ w, t = w ++ r ∧ w.sameLetters k.text = true ∧ (∀ c ∈ w, c.isBlank = false) ∧
      (k.isParenthesis = true ∨ k.isKeyword = true ∧ ∀ c ∈ r.head?, isEdge c = true) := by
  cases t with
  | nil => cases h
  | cons c t =>
    rw [separator?] at h
    split at h
    · rename_i hc
      cases h
      subst hc
      exact ⟨[.scalar '('], rfl, rfl, by simp only [List.mem_singleton, forall_eq]; rfl, .inl rfl⟩
    · split at h
      · rename_i hc
        cases h
        subst hc
        exact ⟨[.scalar ')'], rfl, rfl, by simp only [List.mem_singleton, forall_eq]; rfl, .inl rfl⟩
      · split at h
        · obtain ⟨k', hk, heq⟩ := Option.map_eq_some_iff.mp h
          cases heq
          obtain ⟨hkey, hletters⟩ := ofWord?_eq_some hk
          have hc : isEdge c = false := by
            cases hc : isEdge c with
            | false => rfl
            | true => simp [firstWord_edge hc, ofWord?_nil] at hk
          exact ⟨firstWord (c :: t), (firstWord_append_rest hc t).symm, hletters,
            fun d hd => isBlank_firstWord hd, .inr ⟨hkey, isEdge_head_dropWhile t⟩⟩
        · cases h

/-! ## Text without a separator -/

/-- Whether a keyword may begin behind this text. -/
def atEdge (u : Text) : Bool := u.getLast?.all isEdge

theorem atEdge_concat (u : Text) (c : CodePoint) : atEdge (u ++ [c]) = isEdge c := by
  simp [atEdge]

theorem atEdge_append {u v : Text} (hv : v ≠ []) : atEdge (u ++ v) = atEdge v := by
  simp [atEdge, List.getLast?_append_of_ne_nil u hv]

/-- No separator begins anywhere in the first text, where the second one follows. -/
def Undivided (h t : Text) : Prop :=
  ∀ u v, h = u ++ v → v ≠ [] → separator? (atEdge u) (v ++ t) = none

/-- There is no parenthesis, and no word behind an edge spells a keyword. -/
theorem undivided_iff {h t : Text} : Undivided h t ↔
    (∀ c ∈ h, c ≠ .scalar '(' ∧ c ≠ .scalar ')') ∧
      ∀ u v, h = u ++ v → v ≠ [] → atEdge u = true → ofWord? (firstWord (v ++ t)) = none := by
  constructor
  · intro hh
    refine ⟨?_, ?_⟩
    · intro c hc
      obtain ⟨u, v, rfl⟩ := List.append_of_mem hc
      have hplace := separator?_eq_none_iff.mp (hh u (c :: v) rfl (List.cons_ne_nil c v))
      exact ⟨hplace.1, hplace.2.1⟩
    · intro u v huv hv hu
      have hplace := hh u v huv hv
      obtain ⟨c, v, rfl⟩ := List.exists_cons_of_ne_nil hv
      exact (separator?_eq_none_iff.mp hplace).2.2 hu
  · rintro ⟨hparen, hkey⟩ u v huv hv
    have hword := hkey u v huv hv
    obtain ⟨c, v, rfl⟩ := List.exists_cons_of_ne_nil hv
    obtain ⟨hopen, hclose⟩ := hparen c (by simp [huv])
    exact separator?_eq_none_iff.mpr ⟨hopen, hclose, hword⟩

theorem undivided_nil (t : Text) : Undivided [] t := by
  intro u v huv hv
  exact absurd (List.append_eq_nil_iff.mp huv.symm).2 hv

/-- The scan passes one more sign. -/
theorem Undivided.concat {h t : Text} {c : CodePoint} (hh : Undivided h (c :: t))
    (hc : separator? (atEdge h) (c :: t) = none) : Undivided (h ++ [c]) t := by
  intro u v huv hv
  obtain ⟨w, d, hwd⟩ := v.eq_nil_or_concat.resolve_left hv
  rw [List.concat_eq_append] at hwd
  rw [hwd, ← List.append_assoc] at huv
  obtain ⟨huw, hcd⟩ := List.append_inj' huv rfl
  cases hcd
  rw [hwd, List.append_assoc, List.singleton_append]
  cases w with
  | nil =>
    rw [List.append_nil] at huw
    rw [← huw]
    exact hc
  | cons e w => exact hh u _ huw (List.cons_ne_nil e w)

/-- A text without a separator is read to its end, and is in hand then. -/
theorem scan_undivided {h x t : Text} (hx : Undivided (h ++ x) t) :
    scan (atEdge h) h.reverse (x ++ t) = scan (atEdge (h ++ x)) (h ++ x).reverse t := by
  induction x generalizing h with
  | nil => rw [List.append_nil, List.nil_append]
  | cons c x ih =>
    have hplace := hx h (c :: x) rfl (List.cons_ne_nil c x)
    rw [List.cons_append] at hplace
    rw [List.append_cons] at hx ⊢
    rw [← ih hx, List.cons_append, scan_free hplace, atEdge_concat, List.reverse_concat]

theorem tokenize_of_undivided {x : Text} (h : Undivided x []) : tokenize x = ofFreeText x := by
  have hscan := scan_undivided (h := []) h
  rw [List.append_nil, scan_nil, List.nil_append, List.reverse_reverse] at hscan
  exact hscan

/-- Inside a word only a parenthesis separates. -/
theorem isEdge_head_of_separator? {t : Text} (h : separator? false t ≠ none) :
    ∀ c ∈ t.head?, isEdge c = true := by
  intro c hc
  obtain ⟨u, rfl⟩ : ∃ u, t = c :: u := List.head?_eq_some_iff.mp hc
  by_contra hedge
  simp only [isEdge, Bool.not_eq_true, Bool.or_eq_false_iff, beq_eq_false_iff_ne] at hedge
  exact h (separator?_eq_none_iff.mpr ⟨hedge.1.2, hedge.2, Bool.noConfusion⟩)

/-- Text that a separator or the end of the query cuts off is undivided by itself. -/
theorem Undivided.cut {h r : Text} (hh : Undivided h r)
    (hr : r = [] ∨ separator? (atEdge h) r ≠ none) : Undivided h [] := by
  obtain ⟨hparen, hkey⟩ := undivided_iff.mp hh
  refine undivided_iff.mpr ⟨hparen, ?_⟩
  intro u v huv hv hu
  have hword : firstWord (v ++ r) = firstWord v := by
    rcases hr with rfl | hr
    · rw [List.append_nil]
    · rw [huv, atEdge_append hv] at hr
      -- Behind an edge a keyword may follow, and then that edge ends the word.
      cases hlast : atEdge v with
      | false => exact firstWord_append_of_head v (isEdge_head_of_separator? (hlast ▸ hr))
      | true =>
        obtain ⟨w, c, hwc⟩ := v.eq_nil_or_concat.resolve_left hv
        rw [List.concat_eq_append] at hwc
        rw [hwc, atEdge_concat] at hlast
        exact firstWord_append_edge (by simp [hwc]) hlast r
  rw [List.append_nil, ← hword]
  exact hkey u v huv hv hu

theorem atEdge_of_isBlank {b : Text} (hb : ∀ c ∈ b, c.isBlank = true) : atEdge b = true := by
  simp only [atEdge, Option.all_eq_true]
  intro c hc
  exact isEdge_of_isBlank (hb c (List.mem_of_getLast? hc))

/-- The blanks around an undivided text can go. -/
theorem Undivided.strip {h : Text} (hh : Undivided h []) : Undivided h.strip [] := by
  obtain ⟨b, e, hcut, hb, he⟩ := h.exists_strip
  obtain ⟨hparen, hkey⟩ := undivided_iff.mp hh
  refine undivided_iff.mpr ⟨fun c hc => hparen c (by rw [hcut]; simp [hc]), ?_⟩
  intro u v huv hv hu
  have hplace : h = (b ++ u) ++ (v ++ e) := by
    rw [huv] at hcut
    rw [hcut]
    simp
  have hfront : atEdge (b ++ u) = true := by
    cases u with
    | nil => simpa using atEdge_of_isBlank hb
    | cons c u => rw [atEdge_append (List.cons_ne_nil c u), hu]
  have hnone := hkey (b ++ u) (v ++ e) hplace (by simp [hv]) hfront
  rw [List.append_nil, firstWord_append_of_head v] at hnone
  · rwa [List.append_nil]
  · intro c hc
    exact isEdge_of_isBlank (he c (List.mem_of_head? hc))

/-! ## The terms of a query -/

theorem mem_ofFreeText {s h : Text} : .term s ∈ ofFreeText h ↔ s = h.strip ∧ s ≠ [] := by
  unfold ofFreeText
  split <;> simp_all

theorem separator_ne_term {atEdge : Bool} {t r : Text} {k : Token}
    (h : separator? atEdge t = some (k, r)) (s : Text) : k ≠ .term s := by
  obtain ⟨w, -, -, -, hk⟩ := separator?_eq_some h
  rintro rfl
  simp [isParenthesis, isKeyword] at hk

/-- Behind a separator a keyword may begin, as at the front of a query. -/
theorem separator?_isParenthesis {atEdge : Bool} {t r : Text} {k : Token}
    (h : separator? atEdge t = some (k, r)) :
    separator? k.isParenthesis r = separator? true r := by
  obtain ⟨w, -, -, -, hk | ⟨-, hr⟩⟩ := separator?_eq_some h
  · rw [hk]
  · exact separator?_edge hr _

theorem undivided_of_mem_scan {a : Bool} {h t s : Text}
    (ha : separator? a t = separator? (atEdge h.reverse) t) (hheld : Undivided h.reverse t)
    (hs : .term s ∈ scan a h t) : s ≠ [] ∧ Undivided s [] := by
  fun_induction scan a h t with
  | case1 a h t k r hsep _ ih =>
    rcases List.mem_append.mp hs with hfree | hrest
    · obtain ⟨rfl, hne⟩ := mem_ofFreeText.mp hfree
      exact ⟨hne, (hheld.cut (.inr (by simp [← ha, hsep]))).strip⟩
    · rcases List.mem_cons.mp hrest with hk | hscan
      · exact absurd hk.symm (separator_ne_term hsep s)
      · exact ih (separator?_isParenthesis hsep) (undivided_nil r) hscan
  | case2 a h hsep =>
    obtain ⟨rfl, hne⟩ := mem_ofFreeText.mp hs
    exact ⟨hne, hheld.strip⟩
  | case3 a h c t hsep ih =>
    refine ih ?_ ?_ hs
    · rw [List.reverse_cons, atEdge_concat]
    · rw [List.reverse_cons]
      exact hheld.concat (ha ▸ hsep)

theorem undivided_of_mem_tokenize {q s : Text} (hs : .term s ∈ tokenize q) :
    s ≠ [] ∧ Undivided s [] :=
  undivided_of_mem_scan (h := []) rfl (undivided_nil q) hs

/-- A word of a text: no edge is in it, and edges or the ends of the text are around it. -/
def WordOf (w s : Text) : Prop :=
  (∀ c ∈ w, isEdge c = false) ∧
    ∃ u v, s = u ++ w ++ v ∧ atEdge u = true ∧ ∀ c ∈ v.head?, isEdge c = true

theorem Undivided.ofWord?_eq_none {s w : Text} (hs : Undivided s []) (hw : WordOf w s) :
    ofWord? w = none := by
  obtain ⟨hedge, u, v, huv, hu, hv⟩ := hw
  cases w with
  | nil => rfl
  | cons c w =>
    have hkey := (undivided_iff.mp hs).2 u (c :: w ++ v) (by rw [huv, List.append_assoc])
      (List.cons_ne_nil _ _) hu
    rwa [List.append_nil, firstWord_append hedge, firstWord_of_head hv, List.append_nil] at hkey

end Token

end GalleryScan
