import GalleryScan.Json.Reader

/-!
# How the readers of JSON go on

Each reader by what it does on each kind of front, without the proof that the rest is shorter,
which `taken` strips off. The first rules say what is read where the parts are read, the others
which parts must have been read:

> `taken (readItems (skip t)) = .ok (xs, r) → taken (readValue ('[' :: t)) = .ok (.array xs, r)`
-/

set_option autoImplicit false

namespace GalleryScan

namespace Json

/-- What is read and what is left, without the proof about its length. -/
def taken {α : Type} {p : α × Text → Prop} (e : Except JsonStop { r // p r }) :
    Except JsonStop (α × Text) := e.map Subtype.val

theorem taken_eq_ok {α : Type} {p : α × Text → Prop} {e : Except JsonStop { r // p r }}
    {x : α × Text} (h : taken e = .ok x) : ∃ hx, e = .ok ⟨x, hx⟩ := by
  cases e with
  | error stop => cases h
  | ok y =>
    cases h
    exact ⟨y.2, rfl⟩

/-- What goes on after a reader was given what that one had read. -/
theorem taken_bind_eq_ok {α β : Type} {p : α × Text → Prop} {e : Except JsonStop β}
    {f : β → Except JsonStop { r // p r }} {x : α × Text} (h : taken (e >>= f) = .ok x) :
    ∃ y, e = .ok y ∧ taken (f y) = .ok x := by
  cases e with
  | error stop => cases h
  | ok y => exact ⟨y, rfl, h⟩

theorem skip_of_not_isSpace {c : CodePoint} {t : Text} (h : isSpace c = false) :
    skip (c :: t) = c :: t := by
  rw [skip, List.dropWhile_cons, h]
  rfl

/-! ## Texts -/

theorem taken_readText_quote (left : Nat) (t : Text) :
    taken (readText left (.scalar '\x22' :: t)) = .ok ([], t) := by
  rw [readText.eq_def]
  dsimp only
  rw [if_pos rfl]
  rfl

/-- A code point that needs no escape stands for itself. -/
theorem taken_readText_plain {left : Nat} {c : CodePoint} {t r : Text} {xs : Text}
    (hquote : c ≠ .scalar '\x22') (hescape : c ≠ .scalar '\\') (hc : 32 ≤ c.val)
    (h : taken (readText left t) = .ok (xs, r)) :
    taken (readText left (c :: t)) = .ok (c :: xs, r) := by
  obtain ⟨hr, h⟩ := taken_eq_ok h
  rw [readText.eq_def]
  dsimp only
  rw [if_neg hquote, if_neg hescape, if_neg (by omega), h]
  rfl

theorem taken_readText_escape {left : Nat} {d x : CodePoint} {t r : Text} {xs : Text}
    (hu : d ≠ .scalar 'u') (hd : escaped? d = some x)
    (h : taken (readText left t) = .ok (xs, r)) :
    taken (readText left (.scalar '\\' :: d :: t)) = .ok (x :: xs, r) := by
  obtain ⟨hr, h⟩ := taken_eq_ok h
  rw [readText.eq_def]
  dsimp only
  rw [if_neg (by decide), if_pos rfl, if_neg hu, hd]
  dsimp only
  rw [h]
  rfl

theorem taken_readText_unicode {left : Nat} {x : CodePoint} {t r r' : Text} {xs : Text}
    (hx : taken (readUnicode (t.length + 1) t) = .ok (x, r))
    (h : taken (readText left r) = .ok (xs, r')) :
    taken (readText left (.scalar '\\' :: .scalar 'u' :: t)) = .ok (x :: xs, r') := by
  obtain ⟨hr, hx⟩ := taken_eq_ok hx
  obtain ⟨hr', h⟩ := taken_eq_ok h
  rw [readText.eq_def]
  dsimp only
  rw [if_neg (by decide), if_pos rfl, if_pos rfl, hx]
  dsimp only [bind, Except.bind]
  rw [h]
  rfl

/-! ## Values -/

theorem taken_readValue_text {t r : Text} {s : Text}
    (h : taken (readText (t.length + 1) t) = .ok (s, r)) :
    taken (readValue (.scalar '\x22' :: t)) = .ok (.text s, r) := by
  obtain ⟨hr, h⟩ := taken_eq_ok h
  rw [readValue.eq_def]
  dsimp only
  rw [if_pos rfl, h]
  rfl

theorem taken_readValue_noItems {t r : Text} (h : skip t = .scalar ']' :: r) :
    taken (readValue (.scalar '[' :: t)) = .ok (.array [], r) := by
  rw [readValue.eq_def]
  dsimp only
  rw [if_neg (by decide), if_pos rfl]
  split
  · rename_i h'
    rw [h] at h'
    cases h'
    rfl
  · rename_i h'
    exact absurd h (h' r)

theorem taken_readValue_items {t r : Text} {xs : List Json}
    (hne : (skip t).head? ≠ some (.scalar ']')) (h : taken (readItems (skip t)) = .ok (xs, r)) :
    taken (readValue (.scalar '[' :: t)) = .ok (.array xs, r) := by
  obtain ⟨hr, h⟩ := taken_eq_ok h
  rw [readValue.eq_def]
  dsimp only
  rw [if_neg (by decide), if_pos rfl]
  split
  · rename_i h'
    rw [h'] at hne
    exact absurd rfl hne
  · rw [h]
    rfl

theorem taken_readValue_noMembers {t r : Text} (h : skip t = .scalar '\x7d' :: r) :
    taken (readValue (.scalar '\x7b' :: t)) = .ok (.object [], r) := by
  rw [readValue.eq_def]
  dsimp only
  rw [if_neg (by decide), if_neg (by decide), if_pos rfl]
  split
  · rename_i h'
    rw [h] at h'
    cases h'
    rfl
  · rename_i h'
    exact absurd h (h' r)

theorem taken_readValue_members {t r : Text} {ms : List (Text × Json)}
    (hne : (skip t).head? ≠ some (.scalar '\x7d'))
    (h : taken (readMembers (skip t)) = .ok (ms, r)) :
    taken (readValue (.scalar '\x7b' :: t)) = .ok (.object (ofMembers ms), r) := by
  obtain ⟨hr, h⟩ := taken_eq_ok h
  rw [readValue.eq_def]
  dsimp only
  rw [if_neg (by decide), if_neg (by decide), if_pos rfl]
  split
  · rename_i h'
    rw [h'] at hne
    exact absurd rfl hne
  · rw [h]
    rfl

/-- The signs with which texts, arrays and objects begin. -/
def isOpening (c : CodePoint) : Bool :=
  c = .scalar '\x22' || c = .scalar '[' || c = .scalar '\x7b'

theorem taken_readValue_scalar {c : CodePoint} {t r : Text} {x : Json}
    (hc : isOpening c = false) (hr : r.length ≤ t.length)
    (h : readScalar (c :: t) = .ok (x, r)) :
    taken (readValue (c :: t)) = .ok (x, r) := by
  simp only [isOpening, Bool.or_eq_false_iff, decide_eq_false_iff_not] at hc
  rw [readValue.eq_def]
  dsimp only
  rw [if_neg hc.1.1, if_neg hc.1.2, if_neg hc.2, h]
  dsimp only [bind, Except.bind]
  rw [dif_pos (show r.length < (c :: t).length from Nat.lt_succ_of_le hr)]
  rfl

/-! ## Items and members -/

theorem taken_readItems_last {t r rest : Text} {x : Json} (h : taken (readValue t) = .ok (x, r))
    (hr : skip r = .scalar ']' :: rest) : taken (readItems t) = .ok ([x], rest) := by
  obtain ⟨hx, h⟩ := taken_eq_ok h
  rw [readItems.eq_def, h]
  dsimp only [bind, Except.bind]
  split
  · rename_i h'
    rw [hr] at h'
    cases h'
    rfl
  · rename_i h'
    rw [hr] at h'
    cases h'
  · rename_i h' _
    exact absurd hr (h' rest)

theorem taken_readItems_more {t r r' rest : Text} {x : Json} {xs : List Json}
    (h : taken (readValue t) = .ok (x, r)) (hr : skip r = .scalar ',' :: r')
    (hxs : taken (readItems (skip r')) = .ok (xs, rest)) :
    taken (readItems t) = .ok (x :: xs, rest) := by
  obtain ⟨hx, h⟩ := taken_eq_ok h
  obtain ⟨hxs', hxs⟩ := taken_eq_ok hxs
  rw [readItems.eq_def, h]
  dsimp only [bind, Except.bind]
  split
  · rename_i h'
    rw [hr] at h'
    cases h'
  · rename_i h'
    rw [hr] at h'
    cases h'
    rw [hxs]
    rfl
  · rename_i h'
    exact absurd hr (h' r')

/-- A name, a colon and a value: the front of a member. -/
structure Member (t : Text) (k : Text) (x : Json) (r : Text) : Prop where
  named : ∃ t' r₁ r₂, t = .scalar '\x22' :: t' ∧ taken (readText (t'.length + 1) t') = .ok (k, r₁)
    ∧ skip r₁ = .scalar ':' :: r₂ ∧ taken (readValue (skip r₂)) = .ok (x, r)

theorem taken_readMembers_last {t r rest : Text} {k : Text} {x : Json} (h : Member t k x r)
    (hr : skip r = .scalar '\x7d' :: rest) : taken (readMembers t) = .ok ([(k, x)], rest) := by
  obtain ⟨t', r₁, r₂, ht, hk, hcolon, hx⟩ := h.named
  obtain ⟨hk', hk⟩ := taken_eq_ok hk
  obtain ⟨hx', hx⟩ := taken_eq_ok hx
  rw [readMembers.eq_def]
  split
  · cases ht
    rw [hk]
    dsimp only [bind, Except.bind]
    split
    · rename_i h'
      rw [hcolon] at h'
      cases h'
      rw [hx]
      dsimp only
      split
      · rename_i h'
        rw [hr] at h'
        cases h'
        rfl
      · rename_i h'
        rw [hr] at h'
        cases h'
      · rename_i h' _
        exact absurd hr (h' rest)
    · rename_i h'
      exact absurd hcolon (h' r₂)
  · rename_i h'
    exact absurd ht (h' t')

theorem taken_readMembers_more {t r r' rest k : Text} {x : Json} {ms : List (Text × Json)}
    (h : Member t k x r) (hr : skip r = .scalar ',' :: r')
    (hms : taken (readMembers (skip r')) = .ok (ms, rest)) :
    taken (readMembers t) = .ok ((k, x) :: ms, rest) := by
  obtain ⟨t', r₁, r₂, ht, hk, hcolon, hx⟩ := h.named
  obtain ⟨hk', hk⟩ := taken_eq_ok hk
  obtain ⟨hx', hx⟩ := taken_eq_ok hx
  obtain ⟨hms', hms⟩ := taken_eq_ok hms
  rw [readMembers.eq_def]
  split
  · cases ht
    rw [hk]
    dsimp only [bind, Except.bind]
    split
    · rename_i h'
      rw [hcolon] at h'
      cases h'
      rw [hx]
      dsimp only
      split
      · rename_i h'
        rw [hr] at h'
        cases h'
      · rename_i h'
        rw [hr] at h'
        cases h'
        rw [hms]
        rfl
      · rename_i h'
        exact absurd hr (h' r')
    · rename_i h'
      exact absurd hcolon (h' r₂)
  · rename_i h'
    exact absurd ht (h' t')

/-! ## Which parts have been read -/

/-- The ways in which a value comes about. -/
inductive Came (t : Text) (x : Json) (r : Text) : Prop where
  | text (u s : Text) (front : t = .scalar '\x22' :: u) (value : x = .text s)
  | noItems (u : Text) (front : t = .scalar '[' :: u) (value : x = .array [])
  | items (u : Text) (xs : List Json) (front : t = .scalar '[' :: u)
      (read : taken (readItems (skip u)) = .ok (xs, r)) (value : x = .array xs)
  | noMembers (u : Text) (front : t = .scalar '\x7b' :: u) (value : x = .object [])
  | members (u : Text) (ms : List (Text × Json)) (front : t = .scalar '\x7b' :: u)
      (read : taken (readMembers (skip u)) = .ok (ms, r)) (value : x = .object (ofMembers ms))
  | scalar (read : readScalar t = .ok (x, r))

theorem came_of_readValue {t r : Text} {x : Json} (h : taken (readValue t) = .ok (x, r)) :
    Came t x r := by
  rw [readValue.eq_def] at h
  split at h
  · cases h
  rename_i c t
  split at h
  · rename_i hc
    obtain ⟨y, _, hy⟩ := taken_bind_eq_ok h
    cases hy
    exact .text t _ (by rw [hc]) rfl
  split at h
  · rename_i hc
    split at h
    · cases h
      exact .noItems t (by rw [hc]) rfl
    · obtain ⟨y, hread, hy⟩ := taken_bind_eq_ok h
      cases hy
      exact .items t _ (by rw [hc]) (by rw [hread]; rfl) rfl
  split at h
  · rename_i hc
    split at h
    · cases h
      exact .noMembers t (by rw [hc]) rfl
    · obtain ⟨y, hread, hy⟩ := taken_bind_eq_ok h
      cases hy
      exact .members t _ (by rw [hc]) (by rw [hread]; rfl) rfl
  · obtain ⟨y, hread, hy⟩ := taken_bind_eq_ok h
    dsimp only at hy
    split at hy
    · cases hy
      exact .scalar hread
    · cases hy

/-- An array's items: a value, and the items after a comma if there is one. -/
theorem readItems_eq_ok {t r : Text} {xs : List Json} (h : taken (readItems t) = .ok (xs, r)) :
    ∃ x ys u, taken (readValue t) = .ok (x, u) ∧ xs = x :: ys
      ∧ (ys = [] ∨ ∃ v, v.length < t.length ∧ taken (readItems v) = .ok (ys, r)) := by
  rw [readItems.eq_def] at h
  obtain ⟨⟨⟨x, u⟩, hu⟩, hvalue, h⟩ := taken_bind_eq_ok h
  dsimp only at h hu
  split at h
  · cases h
    exact ⟨x, [], u, by rw [hvalue]; rfl, rfl, .inl rfl⟩
  · rename_i v hcomma
    obtain ⟨z, hitems, hz⟩ := taken_bind_eq_ok h
    cases hz
    have hlength := skip_length u
    have hlength' := skip_length v
    rw [hcomma, List.length_cons] at hlength
    refine ⟨x, _, u, by rw [hvalue]; rfl, rfl, .inr ⟨skip v, ?_, by rw [hitems]; rfl⟩⟩
    omega
  · cases h

/-- An object's members: a name with a value, and the members after a comma if there is one. -/
theorem readMembers_eq_ok {t r : Text} {ms : List (Text × Json)}
    (h : taken (readMembers t) = .ok (ms, r)) :
    ∃ k x ls u v, u.length < t.length ∧ taken (readValue u) = .ok (x, v) ∧ ms = (k, x) :: ls
      ∧ (ls = [] ∨ ∃ w, w.length < t.length ∧ taken (readMembers w) = .ok (ls, r)) := by
  rw [readMembers.eq_def] at h
  split at h
  · rename_i t
    obtain ⟨⟨⟨k, r₁⟩, hr₁⟩, _, h⟩ := taken_bind_eq_ok h
    dsimp only at h hr₁
    split at h
    · rename_i r₂ hcolon
      obtain ⟨⟨⟨x, v⟩, hv⟩, hvalue, h⟩ := taken_bind_eq_ok h
      dsimp only at h hv
      have hlength := skip_length r₁
      have hlength' := skip_length r₂
      rw [hcolon, List.length_cons] at hlength
      have hshort : (skip r₂).length < (CodePoint.scalar '\x22' :: t).length := by
        rw [List.length_cons]
        omega
      split at h
      · cases h
        exact ⟨k, x, [], skip r₂, v, hshort, by rw [hvalue]; rfl, rfl, .inl rfl⟩
      · rename_i w hcomma
        obtain ⟨z, hmembers, hz⟩ := taken_bind_eq_ok h
        cases hz
        have hlength₁ := skip_length v
        have hlength₂ := skip_length w
        rw [hcomma, List.length_cons] at hlength₁
        refine ⟨k, x, _, skip r₂, v, hshort, by rw [hvalue]; rfl, rfl,
          .inr ⟨skip w, ?_, by rw [hmembers]; rfl⟩⟩
        omega
      · cases h
    · cases h
  · cases h

end Json

end GalleryScan
