import GalleryScan.Proofs.Json.RoundTrip
import Mathlib

/-!
# What the reader yields is proper

Of two members of one name only the last stays, and a whole number of too many digits is refused.
So every value that was read is proper, and so is everything in it:

> `Json.read t = .ok x → x.Proper`
-/

set_option autoImplicit false

namespace GalleryScan

namespace Json

/-- The first value is the second one or stands in it. -/
inductive PartOf : Json → Json → Prop where
  | refl (x : Json) : PartOf x x
  | item (x y : Json) (xs : List Json) (mem : y ∈ xs) (part : PartOf x y) : PartOf x (.array xs)
  | member (x : Json) (m : Text × Json) (ms : List (Text × Json)) (mem : m ∈ ms)
      (part : PartOf x m.2) : PartOf x (.object ms)

/-- The value is a text's, or stands in one that is. -/
def Decoded (x : Json) : Prop := ∃ t y, read t = .ok y ∧ x.PartOf y

/-! ## Members -/

theorem mem_setMember {k : Text} {x : Json} {ms : List (Text × Json)} {m : Text × Json}
    (h : m ∈ setMember k x ms) : m = (k, x) ∨ m ∈ ms := by
  induction ms with
  | nil => exact .inl (List.mem_singleton.mp h)
  | cons l ls ih =>
    rw [setMember] at h
    split at h
    · rename_i hk
      rcases List.mem_cons.mp h with rfl | h
      · exact .inl (by rw [hk])
      · exact .inr (List.mem_cons_of_mem _ h)
    · rcases List.mem_cons.mp h with rfl | h
      · exact .inr (List.mem_cons_self ..)
      · exact (ih h).imp id (List.mem_cons_of_mem _)

/-- A name that is set is a new one at the end, or it was there. -/
theorem names_setMember (k : Text) (x : Json) (ms : List (Text × Json)) :
    (setMember k x ms).map Prod.fst
      = if k ∈ ms.map Prod.fst then ms.map Prod.fst else ms.map Prod.fst ++ [k] := by
  induction ms with
  | nil => rfl
  | cons m ms ih =>
    rw [setMember]
    by_cases hk : m.1 = k
    · rw [if_pos hk, if_pos (by simp [hk])]
      rfl
    · rw [if_neg hk, List.map_cons, ih, List.map_cons]
      by_cases hmem : k ∈ ms.map Prod.fst
      · rw [if_pos hmem, if_pos (List.mem_cons_of_mem _ hmem)]
      · have hnot : k ∉ m.1 :: ms.map Prod.fst := by
          rw [List.mem_cons, not_or]
          exact ⟨fun h => hk h.symm, hmem⟩
        rw [if_neg hmem, if_neg hnot]
        rfl

/-- Members laid over members with different names: the names stay different, and each member is one
of theirs. -/
theorem foldl_setMember (ms before : List (Text × Json)) (h : (before.map Prod.fst).Nodup) :
    ((ms.foldl (fun ms m => setMember m.1 m.2 ms) before).map Prod.fst).Nodup
      ∧ ∀ m ∈ ms.foldl (fun ms m => setMember m.1 m.2 ms) before, m ∈ before ∨ m ∈ ms := by
  induction ms generalizing before with
  | nil => exact ⟨h, fun m hm => .inl hm⟩
  | cons m ms ih =>
    have hset : ((setMember m.1 m.2 before).map Prod.fst).Nodup := by
      rw [names_setMember]
      split
      · exact h
      · rename_i hnot
        refine List.nodup_append.mpr ⟨h, List.nodup_singleton _, ?_⟩
        intro a ha b hb
        rw [List.mem_singleton] at hb
        rintro rfl
        exact hnot (hb ▸ ha)
    obtain ⟨hnodup, hmem⟩ := ih _ hset
    refine ⟨hnodup, ?_⟩
    intro l hl
    rcases hmem l hl with hl | hl
    · rcases mem_setMember hl with rfl | hl
      · exact .inr (List.mem_cons_self ..)
      · exact .inl hl
    · exact .inr (List.mem_cons_of_mem _ hl)

/-! ## Numbers -/

theorem digitsValue_lt (ds : Text) (h : ∀ c ∈ ds, c.isAsciiDigit = true) :
    digitsValue ds < 10 ^ ds.length := by
  induction ds using List.reverseRecOn with
  | nil => decide
  | append_singleton ds c ih =>
    have hc := h c (List.mem_append_right _ (List.mem_singleton_self c))
    have hds := ih fun d hd => h d (List.mem_append_left _ hd)
    rw [CodePoint.isAsciiDigit, Bool.and_eq_true, decide_eq_true_eq, decide_eq_true_eq] at hc
    rw [digitsValue, List.foldl_append, List.length_append, List.length_singleton, Nat.pow_succ]
    show 10 * digitsValue ds + (c.val - 48) < _
    omega

theorem fewDigits_of_lt {n : Nat} (h : n < 10 ^ Whole.maxDigits) :
    (Nat.toDigits 10 n).length ≤ Whole.maxDigits :=
  (Nat.length_toDigits_le_iff (by decide) (by decide)).mpr h

theorem isAsciiDigit_of_mem_wholeDigits {t : Text} {c : CodePoint} (h : c ∈ wholeDigits t) :
    c.isAsciiDigit = true := by
  cases t with
  | nil => cases h
  | cons d t =>
    rw [wholeDigits] at h
    split at h
    · rename_i hd
      rw [List.mem_singleton] at h
      subst h hd
      rfl
    · exact List.mem_takeWhile_imp h

theorem proper_of_readNumber {negative : Bool} {ds t : Text} {x : Json × Text}
    (hds : ∀ c ∈ ds, c.isAsciiDigit = true) (h : readNumber negative ds t = .ok x) :
    x.1.Proper := by
  unfold readNumber at h
  dsimp only at h
  split at h
  · split at h
    · cases h
    · rename_i hlength
      cases h
      have hlt : digitsValue ds < 10 ^ Whole.maxDigits :=
        Nat.lt_of_lt_of_le (digitsValue_lt ds hds)
          (Nat.pow_le_pow_right (by decide) (Nat.le_of_not_lt hlength))
      refine .int _ ?_
      have hfew := fewDigits_of_lt hlt
      unfold FewDigits
      split
      · rwa [Int.natAbs_neg, Int.natAbs_natCast]
      · rwa [Int.natAbs_natCast]
  · cases h
    exact .real _

theorem proper_of_readScalar {t : Text} {x : Json × Text} (h : readScalar t = .ok x) :
    x.1.Proper := by
  have hwords : ∀ w ∈ words, w.2.Proper := by
    intro w hw
    simp only [words, List.mem_cons, List.not_mem_nil, or_false] at hw
    rcases hw with rfl | rfl | rfl | rfl | rfl | rfl
    · exact .null
    · exact .bool true
    · exact .bool false
    all_goals exact .real _
  rcases readScalar_eq_ok h with hword | ⟨negative, u, _, hnumber⟩
  · obtain ⟨w, hmem, rfl⟩ := word?_eq_some hword
    exact hwords w hmem
  · exact proper_of_readNumber (fun c hc => isAsciiDigit_of_mem_wholeDigits hc) hnumber

/-! ## Values -/

/-- By induction on the length of the text: each part is read from a shorter one, but for an array's
first item, which is a value. -/
theorem proper_of_reading (n : Nat) : ∀ t : Text, t.length < n →
    (∀ x r, taken (readValue t) = .ok (x, r) → x.Proper)
      ∧ (∀ xs r, taken (readItems t) = .ok (xs, r) → ∀ x ∈ xs, x.Proper)
      ∧ (∀ ms r, taken (readMembers t) = .ok (ms, r) → ∀ m ∈ ms, m.2.Proper) := by
  induction n with
  | zero =>
    intro t ht
    exact absurd ht (Nat.not_lt_zero _)
  | succ n ih =>
    intro t ht
    have hskip : ∀ c u, t = c :: u → (skip u).length < n := by
      intro c u hu
      have := skip_length u
      rw [hu, List.length_cons] at ht
      omega
    have hvalue : ∀ x r, taken (readValue t) = .ok (x, r) → x.Proper := by
      intro x r h
      cases came_of_readValue h with
      | text u s front value => exact value ▸ .text s
      | noItems u front value => exact value ▸ .array [] (List.forall_mem_nil _)
      | items u xs front read value =>
        exact value ▸ .array xs ((ih _ (hskip _ _ front)).2.1 xs r read)
      | noMembers u front value =>
        exact value ▸ .object [] List.nodup_nil (List.forall_mem_nil _)
      | members u ms front read value =>
        obtain ⟨hnames, hmem⟩ := foldl_setMember ms [] List.nodup_nil
        rw [value]
        refine .object _ hnames ?_
        intro m hm
        rcases hmem m hm with hm | hm
        · cases hm
        · exact (ih _ (hskip _ _ front)).2.2 ms r read m hm
      | scalar read => exact proper_of_readScalar read
    refine ⟨hvalue, ?_, ?_⟩
    · intro xs r h y hy
      obtain ⟨x, ys, u, hx, rfl, hys⟩ := readItems_eq_ok h
      rcases List.mem_cons.mp hy with rfl | hy
      · exact hvalue _ _ hx
      · rcases hys with rfl | ⟨v, hv, hread⟩
        · cases hy
        · exact (ih v (by omega)).2.1 ys r hread y hy
    · intro ms r h m hm
      obtain ⟨k, x, ls, u, v, hu, hx, rfl, hls⟩ := readMembers_eq_ok h
      rcases List.mem_cons.mp hm with rfl | hm
      · exact (ih u (by omega)).1 x v hx
      · rcases hls with rfl | ⟨w, hw, hread⟩
        · cases hm
        · exact (ih w (by omega)).2.2 ls r hread m hm

theorem proper_of_read {t : Text} {x : Json} (h : read t = .ok x) : x.Proper := by
  obtain ⟨r, hread, _⟩ := read_eq_ok h
  exact (proper_of_reading _ _ (Nat.lt_succ_self _)).1 x r hread

theorem Proper.of_partOf {x y : Json} (h : x.PartOf y) (hy : y.Proper) : x.Proper := by
  induction h with
  | refl => exact hy
  | item y xs mem part ih =>
    cases hy with
    | array _ items => exact ih (items _ mem)
  | member m ms mem part ih =>
    cases hy with
    | object _ names values => exact ih (values _ mem)

theorem Decoded.proper {x : Json} (h : x.Decoded) : x.Proper := by
  obtain ⟨t, y, hread, hpart⟩ := h
  exact .of_partOf hpart (proper_of_read hread)

end Json

end GalleryScan
