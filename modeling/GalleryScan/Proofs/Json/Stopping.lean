import GalleryScan.Proofs.Json.Decoded
import Mathlib

/-!
# Why reading JSON stops

Reading stops at a fault of the text or at a whole number. Of the readers only the one for numbers
refuses a whole number, and it does so only if there are too many digits; and the number that it
refuses stands in the text, as each reader leaves an end of what it was given:

> `read t = .error (.tooLong n) → t.HasLongWhole n`

All others pass on why their parts stopped, so that one rule about doing one thing after another
carries this through texts, arrays and objects.
-/

set_option autoImplicit false

namespace GalleryScan

/-- So many digits stand in the text one after the other, and they are too many for a number. -/
def Text.HasLongWhole (t : Text) (digits : Nat) : Prop :=
  Whole.maxDigits < digits ∧ ∃ ds : Text, ds <:+: t ∧ ds.length = digits
    ∧ ∀ c ∈ ds, c.isAsciiDigit = true

namespace Json

section Rules

variable {α β : Type} {p : α × Text → Prop} {q : β × Text → Prop} {t u : Text}

/-- Where the reading stops at a whole number, that one stands in the text. -/
def StopsAtLong (t : Text) (e : Except JsonStop α) : Prop :=
  ∀ n, e = .error (.tooLong n) → t.HasLongWhole n

/-- What is left is an end of the text, and a whole number that stops the reading stands in it. -/
structure StaysIn (t : Text) (e : Except JsonStop { r : α × Text // p r }) : Prop where
  rest : ∀ y, e = .ok y → y.1.2 <:+ t
  stops : StopsAtLong t e

theorem StopsAtLong.ok (x : α) : StopsAtLong t (.ok x) := nofun

theorem StopsAtLong.fault (kind : JsonFault) (left : Nat) :
    StopsAtLong t (.error (.fault kind left) : Except JsonStop α) := nofun

theorem StopsAtLong.mono {e : Except JsonStop α} (h : StopsAtLong t e) (htu : t <:+ u) :
    StopsAtLong u e := by
  intro n hn
  obtain ⟨hlong, ds, hds, hlength, hdigits⟩ := h n hn
  exact ⟨hlong, ds, hds.trans htu.isInfix, hlength, hdigits⟩

theorem StopsAtLong.bind {e : Except JsonStop α} {f : α → Except JsonStop β}
    (he : StopsAtLong t e) (hf : ∀ x, StopsAtLong t (f x)) : StopsAtLong t (e >>= f) := by
  intro n hn
  cases e with
  | error stop =>
    cases hn
    exact he n rfl
  | ok x => exact hf x n hn

theorem StaysIn.ok (y : { r : α × Text // p r }) (h : y.1.2 <:+ t) : StaysIn t (.ok y) := by
  refine ⟨?_, .ok y⟩
  rintro _ ⟨⟩
  exact h

theorem StaysIn.fault (kind : JsonFault) (left : Nat) :
    StaysIn t (.error (.fault kind left) : Except JsonStop { r // p r }) := ⟨nofun, .fault _ _⟩

theorem StaysIn.bind {e : Except JsonStop β} {f : β → Except JsonStop { r // p r }}
    (he : StopsAtLong t e) (hf : ∀ y, e = .ok y → StaysIn t (f y)) : StaysIn t (e >>= f) := by
  cases e with
  | error stop =>
    refine ⟨nofun, fun n hn => ?_⟩
    cases hn
    exact he n rfl
  | ok y => exact hf y rfl

/-- What is read after a part of the text goes on where that part ended. -/
theorem StaysIn.andThen {e : Except JsonStop { r : β × Text // q r }}
    {f : { r : β × Text // q r } → Except JsonStop { r // p r }} (he : StaysIn u e) (hu : u <:+ t)
    (hf : ∀ y, y.1.2 <:+ t → StaysIn t (f y)) : StaysIn t (e >>= f) :=
  .bind (he.stops.mono hu) fun y hy => hf y ((he.rest y hy).trans hu)

end Rules

/-! ## Texts -/

theorem readHex_stops {u : Text} (left : Nat) (t : Text) : StopsAtLong u (readHex left t) := by
  unfold readHex
  split
  · exact .fault _ _
  · split
    · exact .ok _
    · exact .fault _ _

theorem readUnicode_staysIn (left : Nat) (t : Text) : StaysIn t (readUnicode left t) := by
  unfold readUnicode
  refine .bind (readHex_stops left t) fun m _ => ?_
  dsimp only
  split
  · split
    · refine .bind (readHex_stops _ _) fun m' _ => ?_
      split <;> exact .ok _ (List.drop_suffix ..)
    · exact .ok _ (List.drop_suffix ..)
  · exact .ok _ (List.drop_suffix ..)

/-- By induction on the length of the text, of which an escape takes more than one sign. -/
theorem readText_staysIn (n left : Nat) :
    ∀ t : Text, t.length < n → StaysIn t (readText left t) := by
  induction n with
  | zero =>
    intro t ht
    exact absurd ht (Nat.not_lt_zero _)
  | succ n ih =>
    intro t ht
    rw [readText.eq_def]
    split
    · exact .fault _ _
    rename_i c t
    rw [List.length_cons] at ht
    have hcons : t <:+ c :: t := List.suffix_cons ..
    split
    · exact .ok _ hcons
    split
    · split
      · exact .fault _ _
      rename_i d t
      rw [List.length_cons] at ht
      have hcons : t <:+ c :: d :: t := (List.suffix_cons ..).trans hcons
      split
      · refine (readUnicode_staysIn _ t).andThen hcons fun y hy => ?_
        have hshort : y.1.2.length < n := Nat.lt_of_le_of_lt y.2 (by omega)
        exact (ih _ hshort).andThen hy fun z hz => .ok _ hz
      · split
        · exact .fault _ _
        · exact (ih t (by omega)).andThen hcons fun z hz => .ok _ hz
    split
    · exact .fault _ _
    · exact (ih t (by omega)).andThen hcons fun z hz => .ok _ hz

/-! ## Numbers and words -/

theorem prefix_wholeDigits (t : Text) : wholeDigits t <+: t := by
  cases t with
  | nil => exact List.prefix_rfl
  | cons c t =>
    rw [wholeDigits]
    split
    · exact List.prefix_append [c] t
    · exact List.takeWhile_prefix _

theorem number?_stops (negative : Bool) (t : Text) : StopsAtLong t (number? negative t) := by
  intro n hn
  unfold number? at hn
  split at hn
  · cases hn
  have hwhole : wholeDigits t <:+: t := (prefix_wholeDigits t).isInfix
  unfold readNumber at hn
  dsimp only at hn
  split at hn
  · split at hn
    · rename_i hlong
      cases hn
      exact ⟨hlong, _, hwhole, rfl, fun c hc => isAsciiDigit_of_mem_wholeDigits hc⟩
    · cases hn
  · cases hn

theorem orFault_stops {t : Text} (left : Nat) (r : Option (Json × Text)) :
    StopsAtLong t (orFault left r) := by
  cases r with
  | none => exact .fault _ _
  | some r => exact .ok r

theorem readScalar_stops (t : Text) : StopsAtLong t (readScalar t) := by
  unfold readScalar
  split
  · exact .ok _
  · dsimp only
    split
    · exact .bind ((number?_stops _ _).mono (List.suffix_cons ..)) (orFault_stops _)
    · exact .bind (number?_stops _ _) (orFault_stops _)

/-! ## Values -/

section Values

variable {n : Nat} {t r : Text} {c : CodePoint}

theorem suffix_skip (t : Text) : skip t <:+ t := List.dropWhile_suffix _

/-- What stands behind the first sign that is no blank. -/
theorem suffix_of_skip (h : skip t = c :: r) : r <:+ t :=
  (List.suffix_cons c r).trans (h ▸ suffix_skip t)

theorem length_skip_lt (h : skip t = c :: r) : (skip r).length < t.length := by
  have hlength := skip_length t
  have hrest := skip_length r
  rw [h, List.length_cons] at hlength
  omega

/-- In shorter texts all parts are read as they should be. -/
def PartsStayIn (n : Nat) : Prop :=
  ∀ t : Text, t.length < n →
    StaysIn t (readValue t) ∧ StaysIn t (readItems t) ∧ StaysIn t (readMembers t)

theorem readValue_staysIn (ih : PartsStayIn n) (ht : t.length ≤ n) : StaysIn t (readValue t) := by
  rw [readValue.eq_def]
  split
  · exact .fault _ _
  rename_i c u
  have hcons : u <:+ c :: u := List.suffix_cons ..
  have hskip : skip u <:+ c :: u := (suffix_skip u).trans hcons
  have hshort : (skip u).length < n := Nat.lt_of_le_of_lt (skip_length u) ht
  -- A text, an array, an object, or else one word or number.
  split
  · exact (readText_staysIn _ _ u (Nat.lt_succ_self _)).andThen hcons fun y hy => .ok _ hy
  split
  · dsimp only
    split
    · rename_i r hr
      exact .ok _ ((suffix_of_skip hr).trans hcons)
    · exact (ih _ hshort).2.1.andThen hskip fun y hy => .ok _ hy
  split
  · dsimp only
    split
    · rename_i r hr
      exact .ok _ ((suffix_of_skip hr).trans hcons)
    · exact (ih _ hshort).2.2.andThen hskip fun y hy => .ok _ hy
  · refine .bind (readScalar_stops _) fun x hx => ?_
    dsimp only
    split
    · exact .ok _ (suffix_readScalar hx)
    · exact .fault _ _

theorem readItems_staysIn (ih : PartsStayIn n) (ht : t.length ≤ n)
    (hvalue : StaysIn t (readValue t)) : StaysIn t (readItems t) := by
  rw [readItems.eq_def]
  refine hvalue.andThen List.suffix_rfl fun y hy => ?_
  have hshort : y.1.2.length < n := Nat.lt_of_lt_of_le y.2 ht
  dsimp only
  -- Behind the first item a bracket ends the array, and a comma goes on.
  split
  · rename_i r hr
    exact .ok _ ((suffix_of_skip hr).trans hy)
  · rename_i r hr
    have hrest := (suffix_skip r).trans ((suffix_of_skip hr).trans hy)
    have hlength := Nat.lt_trans (length_skip_lt hr) hshort
    exact (ih _ hlength).2.1.andThen hrest fun z hz => .ok _ hz
  · exact .fault _ _

theorem readMembers_staysIn (ih : PartsStayIn n) (ht : t.length ≤ n) :
    StaysIn t (readMembers t) := by
  rw [readMembers.eq_def]
  split
  · rename_i u
    refine (readText_staysIn _ _ u (Nat.lt_succ_self _)).andThen (List.suffix_cons ..)
      fun k hk => ?_
    have hname : k.1.2.length < n := Nat.lt_trans k.2 ht
    dsimp only
    split
    · rename_i r hr
      have hcolon := (suffix_skip r).trans ((suffix_of_skip hr).trans hk)
      have hlength := Nat.lt_trans (length_skip_lt hr) hname
      refine (ih _ hlength).1.andThen hcolon fun y hy => ?_
      have hvalue : y.1.2.length < n := Nat.lt_trans y.2 hlength
      -- The same behind the first member.
      split
      · rename_i r' hr'
        exact .ok _ ((suffix_of_skip hr').trans hy)
      · rename_i r' hr'
        have hrest := (suffix_skip r').trans ((suffix_of_skip hr').trans hy)
        exact (ih _ (Nat.lt_trans (length_skip_lt hr') hvalue)).2.2.andThen hrest
          fun z hz => .ok _ hz
      · exact .fault _ _
    · exact .fault _ _
  · exact .fault _ _

/-- By induction on the length of the text: each part is read from a shorter one, but for an array's
first item, which is a value. -/
theorem partsStayIn (n : Nat) : PartsStayIn n := by
  induction n with
  | zero => exact fun t ht => absurd ht (Nat.not_lt_zero _)
  | succ n ih =>
    intro t ht
    have hshort : t.length ≤ n := Nat.le_of_lt_succ ht
    have hvalue := readValue_staysIn ih hshort
    exact ⟨hvalue, readItems_staysIn ih hshort hvalue, readMembers_staysIn ih hshort⟩

end Values

/-- A whole number for which a text is refused stands in it and has too many digits. -/
theorem hasLongWhole_of_read {t : Text} {n : Nat} (h : read t = .error (.tooLong n)) :
    t.HasLongWhole n := by
  have hall : StopsAtLong t (readAll t) := by
    unfold readAll
    split
    · exact .fault _ _
    · have hvalue := (partsStayIn _ (skip t) (Nat.lt_succ_self _)).1
      refine .bind (hvalue.stops.mono (suffix_skip t)) fun y => ?_
      dsimp only
      split
      · exact .ok _
      · exact .fault _ _
  unfold read at h
  split at h
  · cases h
  · rename_i hread
    cases h
    exact hall _ hread
  · cases h

end Json

end GalleryScan
