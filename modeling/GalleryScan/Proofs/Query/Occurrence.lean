import GalleryScan.Proofs.Text.Caseless
import GalleryScan.Query.Pattern

/-!
# Occurrences of terms

An occurrence of a pattern cuts a text into five: what stands in front of it, digits, the letters of
the term, perhaps an `s`, and what comes after. This says nothing of how occurrences are looked for.
The search goes through places from the left, tries the digits from the longest run down and the
plural before the singular, and each of these is a choice between a better and a worse kind of
occurrence. So one fact about such a choice carries the whole search:

> `Reports S r → Reports S' r' → Reports (S or S') (r.or r')`

where all of the first kind are at least as good as all of the second. The search then reports the
best occurrence there is, and nothing only where there is none.
-/

set_option autoImplicit false

namespace GalleryScan

namespace Pattern

/-- An occurrence of a pattern in a text, as the parts that it cuts the text into. -/
structure Occurrence (p : Pattern) (x : Text) where
  front : Text
  digits : Text
  letters : Text
  ending : Text
  back : Text
  whole : front ++ digits ++ letters ++ ending ++ back = x
  decimal : ∀ c ∈ digits, c.isDecimal = true
  same : p.term.sameLetters letters = true
  /-- The plural of a pattern that has one. -/
  plural : ending = [] ∨
    p.plural = true ∧ ∃ c, ending = [c] ∧ CodePoint.sameLetter (.scalar 's') c = true
  /-- A word begins or ends at the first place. -/
  starts : CodePoint.isBoundary front.getLast? (digits ++ letters ++ ending ++ back).head? = true
  /-- And so it does at the last. -/
  stops : CodePoint.isBoundary (front ++ digits ++ letters ++ ending).getLast? back.head? = true

namespace Occurrence

variable {p : Pattern} {x : Text}

/-- The place at which an occurrence begins. -/
def start (o : p.Occurrence x) : Nat := o.front.length

/-- The place behind an occurrence. -/
def stop (o : p.Occurrence x) : Nat :=
  o.front.length + o.digits.length + o.letters.length + o.ending.length

/-- Is the first occurrence at least as good? It begins further left, or there with more digits, or
with as many and a plural's `s`, if either has that. -/
def AtLeast (o o' : p.Occurrence x) : Prop :=
  o.start ≤ o'.start ∧ (o'.start = o.start → o'.digits.length ≤ o.digits.length ∧
    (o'.digits.length = o.digits.length → o'.ending.length ≤ o.ending.length))

end Occurrence

/-! ## The best of some occurrences -/

section Best

variable {p : Pattern} {x : Text} {S S' : p.Occurrence x → Prop} {r r' : Option (Nat × Nat)}

/-- The first and the last place of the best of these occurrences, if there are any. -/
def Reports (S : p.Occurrence x → Prop) : Option (Nat × Nat) → Prop
  | none => ∀ o, ¬ S o
  | some (i, l) => ∃ o, S o ∧ o.start = i ∧ o.stop = l ∧ ∀ o', S o' → o.AtLeast o'

theorem Reports.congr (h : Reports S r) (hS : ∀ o, S' o ↔ S o) (hr : r' = r) :
    Reports S' r' := by
  rwa [show S' = S from funext fun o => propext (hS o), hr]

/-- Where all of the first kind are at least as good, the second kind counts only without them. -/
theorem Reports.or (h : Reports S r) (h' : Reports S' r')
    (hbetter : ∀ o o', S o → S' o' → o.AtLeast o') :
    Reports (fun o => S o ∨ S' o) (r.or r') := by
  cases r with
  | none => exact h'.congr (fun o => by simp [h o]) rfl
  | some il =>
    obtain ⟨o, hS, hi, hl, hbest⟩ := h
    refine ⟨o, .inl hS, hi, hl, ?_⟩
    intro o' ho'
    rcases ho' with ho' | ho'
    · exact hbest o' ho'
    · exact hbetter o o' hS ho'

end Best

/-! ## The search, from the inside out -/

theorem getLast?_cons_or (d : CodePoint) (ls : Text) (before : Option CodePoint) :
    (d :: ls).getLast?.or before = ls.getLast?.or (some d) := by
  rw [List.getLast?_cons]
  cases ls.getLast? <;> rfl

/-- The letters are taken off the text, and the last of them is handed on. -/
theorem passLetters_eq_some {before last : Option CodePoint} {cs t rest : Text} :
    passLetters before cs t = some (last, rest) ↔
      ∃ ls, t = ls ++ rest ∧ cs.sameLetters ls = true ∧ last = ls.getLast?.or before := by
  induction cs generalizing before t with
  | nil =>
    constructor
    · intro h
      cases h
      exact ⟨[], rfl, rfl, rfl⟩
    · rintro ⟨ls, rfl, hls, rfl⟩
      cases List.eq_nil_of_length_eq_zero (Text.sameLetters_length hls).symm
      rfl
  | cons c cs ih =>
    cases t with
    | nil =>
      constructor
      · intro h
        cases h
      · rintro ⟨ls, hls, hsame, -⟩
        cases (List.append_eq_nil_iff.mp hls.symm).1
        cases hsame
    | cons d t =>
      rw [passLetters]
      constructor
      · intro h
        split at h
        · rename_i hcd
          obtain ⟨ls, rfl, hls, rfl⟩ := ih.mp h
          exact ⟨d :: ls, rfl, by simp [Text.sameLetters, hcd, hls], (getLast?_cons_or ..).symm⟩
        · cases h
      · rintro ⟨ls, hls, hsame, rfl⟩
        cases ls with
        | nil => cases hsame
        | cons e ls =>
          obtain ⟨rfl, rfl⟩ := List.cons.inj hls
          simp only [Text.sameLetters, Bool.and_eq_true] at hsame
          rw [if_pos hsame.1]
          exact ih.mpr ⟨ls, rfl, hsame.2, getLast?_cons_or ..⟩

section Search

variable {p : Pattern} {x u ds ls rest : Text}

/-- The only occurrence with these four parts, if a word begins or ends behind them. -/
theorem reports_cut {e b : Text} (hx : u ++ ds ++ ls ++ e ++ b = x)
    (hds : ∀ c ∈ ds, c.isDecimal = true) (hls : p.term.sameLetters ls = true)
    (hes : e = [] ∨
      p.plural = true ∧ ∃ c, e = [c] ∧ CodePoint.sameLetter (.scalar 's') c = true)
    (hstart : CodePoint.isBoundary u.getLast? (ds ++ ls ++ e ++ b).head? = true) :
    Reports (fun o : p.Occurrence x =>
        o.front = u ∧ o.digits = ds ∧ o.letters = ls ∧ o.ending = e)
      (if CodePoint.isBoundary (u ++ ds ++ ls ++ e).getLast? b.head? then
        some (u.length, u.length + ds.length + ls.length + e.length) else none) := by
  split
  · rename_i hstop
    refine ⟨⟨u, ds, ls, e, b, hx, hds, hls, hes, hstart, hstop⟩, by simp, rfl, rfl, ?_⟩
    rintro o ⟨hfront, hdigits, -, hending⟩
    simp [Occurrence.AtLeast, Occurrence.start, hfront, hdigits, hending]
  · rename_i hstop
    rintro o ⟨rfl, rfl, rfl, rfl⟩
    have hback : o.back = b := List.append_cancel_left (o.whole.trans hx.symm)
    exact hstop (hback ▸ o.stops)

/-- A plural is tried first. -/
theorem ending?_plural {before : Option CodePoint} {c : CodePoint} {t : Text}
    (hc : CodePoint.sameLetter (.scalar 's') c = true) :
    ending? true before (c :: t)
      = (if CodePoint.isBoundary (some c) t.head? then some 1 else none).or
          (if CodePoint.isBoundary before (some c) then some 0 else none) := by
  simp only [ending?, hc, Bool.true_and, List.head?_cons]
  split <;> rfl

theorem ending?_singular {plural : Bool} {before : Option CodePoint} {t : Text}
    (h : ¬ (plural = true ∧ ∃ c ∈ t.head?, CodePoint.sameLetter (.scalar 's') c = true)) :
    ending? plural before t = if CodePoint.isBoundary before t.head? then some 0 else none := by
  cases plural with
  | false => rfl
  | true =>
    cases t with
    | nil => rfl
    | cons c t =>
      have hc : ¬ CodePoint.sameLetter (.scalar 's') c = true := by simpa using h
      simp [ending?, hc]

/-- The plural goes on further than the singular at the same letters. -/
theorem reports_ending (hx : u ++ ds ++ ls ++ rest = x) (hds : ∀ c ∈ ds, c.isDecimal = true)
    (hls : p.term.sameLetters ls = true)
    (hstart : CodePoint.isBoundary u.getLast? (ds ++ ls ++ rest).head? = true) :
    Reports (fun o : p.Occurrence x => o.front = u ∧ o.digits = ds ∧ o.letters = ls)
      ((ending? p.plural (u ++ ds ++ ls).getLast? rest).map fun n =>
        (u.length, u.length + ds.length + ls.length + n)) := by
  have hsingular := reports_cut (p := p) (x := x) (e := []) (b := rest) (by simpa using hx)
    hds hls (.inl rfl) (by simpa using hstart)
  rw [List.append_nil] at hsingular
  have hrest : ∀ o : p.Occurrence x, o.front = u → o.digits = ds → o.letters = ls →
      o.ending ++ o.back = rest := by
    rintro o rfl rfl rfl
    have hwhole := o.whole.trans hx.symm
    rw [List.append_assoc _ o.ending] at hwhole
    exact List.append_cancel_left hwhole
  by_cases hplural :
      p.plural = true ∧ ∃ c ∈ rest.head?, CodePoint.sameLetter (.scalar 's') c = true
  · obtain ⟨hp, c, hhead, hc⟩ := hplural
    obtain ⟨t, rfl⟩ := List.head?_eq_some_iff.mp hhead
    have hplural := reports_cut (p := p) (x := x) (e := [c]) (b := t) (by simpa using hx)
      hds hls (.inr ⟨hp, c, rfl, hc⟩) (by simpa using hstart)
    refine (hplural.or hsingular ?_).congr ?_ ?_
    · rintro o o' ⟨hf, hd, -, he⟩ ⟨hf', hd', -, he'⟩
      simp [Occurrence.AtLeast, Occurrence.start, hf, hd, he, hf', hd', he']
    · intro o
      constructor
      · rintro ⟨hf, hd, hl⟩
        rcases o.plural with he | ⟨-, d, he, -⟩
        · exact .inr ⟨hf, hd, hl, he⟩
        · have hback := hrest o hf hd hl
          rw [he] at hback
          obtain ⟨rfl, -⟩ := List.cons.inj hback
          exact .inl ⟨hf, hd, hl, he⟩
      · rintro (⟨hf, hd, hl, -⟩ | ⟨hf, hd, hl, -⟩) <;> exact ⟨hf, hd, hl⟩
    · rw [hp, ending?_plural hc, Option.map_or, List.getLast?_concat, apply_ite (Option.map _),
        apply_ite (Option.map _)]
      rfl
  · refine hsingular.congr ?_ ?_
    · intro o
      refine ⟨?_, fun ⟨hf, hd, hl, _⟩ => ⟨hf, hd, hl⟩⟩
      rintro ⟨hf, hd, hl⟩
      refine ⟨hf, hd, hl, ?_⟩
      rcases o.plural with he | ⟨hp, c, he, hc⟩
      · exact he
      · have hback := hrest o hf hd hl
        rw [he] at hback
        exact absurd ⟨hp, c, by simp [← hback], hc⟩ hplural
    · rw [ending?_singular hplural]
      split <;> rfl

/-! ### Letters and digits -/

theorem bare?_eq (p : Pattern) (before : Option CodePoint) (t : Text) :
    p.bare? before t = (passLetters before p.term t).bind fun found =>
      (ending? p.plural found.1 found.2).map (p.term.length + ·) := by
  unfold bare?
  cases passLetters before p.term t with
  | none => rfl
  | some found => exact (Option.map_eq_bind ..).symm

/-- A digit more is tried first. -/
theorem length?_cons (p : Pattern) (before : Option CodePoint) (c : CodePoint) (t : Text) :
    p.length? before (c :: t)
      = (if c.isDecimal then (p.length? (some c) t).map (· + 1) else none).or
          (p.bare? before (c :: t)) := by
  rw [length?]
  split <;> rename_i hmore <;> simp only [hmore] <;> rfl

/-- Without the letters of the term there is no occurrence behind these digits. -/
theorem reports_bare (hx : u ++ ds ++ rest = x) (hds : ∀ c ∈ ds, c.isDecimal = true)
    (hstart : CodePoint.isBoundary u.getLast? (ds ++ rest).head? = true) :
    Reports (fun o : p.Occurrence x => o.front = u ∧ o.digits = ds)
      ((p.bare? (u ++ ds).getLast? rest).map fun n => (u.length, u.length + ds.length + n)) := by
  have hletters : ∀ o : p.Occurrence x, o.front = u → o.digits = ds →
      rest = o.letters ++ (o.ending ++ o.back) := by
    rintro o rfl rfl
    have hwhole := hx.trans o.whole.symm
    simp only [List.append_assoc] at hwhole ⊢
    exact List.append_cancel_left (List.append_cancel_left hwhole)
  rw [bare?_eq]
  cases hpass : passLetters (u ++ ds).getLast? p.term rest with
  | none =>
    rintro o ⟨hf, hd⟩
    rw [passLetters_eq_some.mpr ⟨o.letters, hletters o hf hd, o.same, rfl⟩] at hpass
    cases hpass
  | some found =>
    obtain ⟨last, rest'⟩ := found
    obtain ⟨ls, rfl, hls, rfl⟩ := passLetters_eq_some.mp hpass
    rw [← List.append_assoc] at hx hstart
    refine (reports_ending hx hds hls hstart).congr ?_ ?_
    · intro o
      refine ⟨?_, fun ⟨hf, hd, _⟩ => ⟨hf, hd⟩⟩
      rintro ⟨hf, hd⟩
      have hlength := (Text.sameLetters_length hls).symm.trans (Text.sameLetters_length o.same)
      exact ⟨hf, hd, (List.append_inj_left (hletters o hf hd) hlength).symm⟩
    · rw [List.getLast?_append (l := u ++ ds), Option.bind_some, Option.map_map,
        Text.sameLetters_length hls]
      simp only [Function.comp_def, Nat.add_assoc]

theorem prefix_digits (hx : u ++ rest = x) (o : p.Occurrence x) (ho : o.front = u) :
    o.digits <+: rest := by
  subst ho
  have hwhole := hx.trans o.whole.symm
  simp only [List.append_assoc] at hwhole
  exact ⟨_, (List.append_cancel_left hwhole).symm⟩

/-- What goes on for a while goes on with the next code point, or it is over. -/
theorem prefix_iff {s t : Text} {c : CodePoint} {w : Text} (h : w <+: s ++ c :: t) :
    s <+: w ↔ s ++ [c] <+: w ∨ w = s := by
  constructor
  · rintro ⟨v, rfl⟩
    rw [List.prefix_append_right_inj] at h
    cases v with
    | nil => simp
    | cons d v =>
      obtain ⟨rfl, -⟩ := List.cons_prefix_cons.mp h
      simp
  · rintro (hmore | rfl)
    · exact (List.prefix_append ..).trans hmore
    · exact List.prefix_rfl

/-- By induction on the rest of the text: more digits are tried first, and where they lead to no
occurrence, those that there are. -/
theorem reports_length (hx : u ++ ds ++ rest = x) (hds : ∀ c ∈ ds, c.isDecimal = true)
    (hstart : CodePoint.isBoundary u.getLast? (ds ++ rest).head? = true) :
    Reports (fun o : p.Occurrence x => o.front = u ∧ ds <+: o.digits)
      ((p.length? (u ++ ds).getLast? rest).map fun n => (u.length, u.length + ds.length + n)) := by
  induction rest generalizing ds with
  | nil =>
    refine (reports_bare hx hds hstart).congr ?_ rfl
    intro o
    constructor
    · rintro ⟨hf, hd⟩
      have hle := prefix_digits (by rwa [← List.append_assoc]) o hf
      rw [List.append_nil] at hle
      exact ⟨hf, (hd.eq_of_length_le hle.length_le).symm⟩
    · rintro ⟨hf, rfl⟩
      exact ⟨hf, List.prefix_rfl⟩
  | cons c t ih =>
    have hbare := reports_bare (p := p) hx hds hstart
    -- The digits go on with the next sign, or these are all of them.
    have hdigits : ∀ o : p.Occurrence x, (o.front = u ∧ ds <+: o.digits)
        ↔ (o.front = u ∧ ds ++ [c] <+: o.digits) ∨ (o.front = u ∧ o.digits = ds) := by
      intro o
      rw [← and_or_left]
      exact and_congr_right fun hf =>
        prefix_iff (prefix_digits (by rwa [← List.append_assoc]) o hf)
    rw [length?_cons]
    by_cases hc : c.isDecimal = true
    · have hmore := @ih (ds ++ [c]) (by simpa using hx)
        (by simpa [or_imp, forall_and, hc] using hds) (by simpa using hstart)
      rw [← List.append_assoc, List.getLast?_concat] at hmore
      refine (hmore.or hbare ?_).congr hdigits ?_
      · rintro o o' ⟨hf, hd⟩ ⟨hf', hd'⟩
        have hlonger := hd.length_le
        simp only [List.length_append, List.length_singleton] at hlonger
        refine ⟨by simp [Occurrence.start, hf, hf'], fun _ => ⟨?_, fun heq => ?_⟩⟩
        · rw [hd']
          omega
        · rw [hd'] at heq
          omega
      · rw [if_pos hc, Option.map_or, Option.map_map]
        simp only [Function.comp_def, List.length_append, List.length_singleton, Nat.add_assoc,
          Nat.add_comm 1]
    · refine hbare.congr (fun o => (hdigits o).trans (or_iff_right ?_)) ?_
      · rintro ⟨_, hd⟩
        exact hc (o.decimal c (hd.subset (by simp)))
      · rw [if_neg hc, Option.none_or]

/-! ### Places -/

/-- What begins at the first place of a text, where a word may begin or end there. -/
def here? (p : Pattern) (before : Option CodePoint) (t : Text) : Option Nat :=
  if CodePoint.isBoundary before t.head? then p.length? before t else none

theorem findFrom_nil (p : Pattern) (before : Option CodePoint) :
    p.findFrom before [] = (p.here? before []).map ((0, ·)) := by
  rw [findFrom.eq_def]
  generalize hfound : p.here? before [] = found
  rw [here?] at hfound
  dsimp only
  rw [hfound]
  cases found <;> rfl

/-- This place is tried before those further on. -/
theorem findFrom_cons (p : Pattern) (before : Option CodePoint) (c : CodePoint) (t : Text) :
    p.findFrom before (c :: t) = ((p.here? before (c :: t)).map ((0, ·))).or
      ((p.findFrom (some c) t).map fun found => (found.1 + 1, found.2 + 1)) := by
  rw [findFrom.eq_def]
  generalize hfound : p.here? before (c :: t) = found
  rw [here?] at hfound
  dsimp only
  rw [hfound]
  cases found <;> rfl

theorem reports_here (hx : u ++ rest = x) : Reports (fun o : p.Occurrence x => o.front = u)
    ((p.here? u.getLast? rest).map fun n => (u.length, u.length + n)) := by
  unfold here?
  split
  · rename_i hstart
    have hany : Reports (fun o : p.Occurrence x => o.front = u ∧ [] <+: o.digits)
        ((p.length? (u ++ []).getLast? rest).map fun n => (u.length, u.length + 0 + n)) :=
      reports_length (by simpa using hx) (by simp) (by simpa using hstart)
    exact hany.congr (fun o => by simp) (by simp)
  · rename_i hstart
    rintro o rfl
    have hwhole := hx.trans o.whole.symm
    simp only [List.append_assoc] at hwhole
    have hstarts := o.starts
    simp only [List.append_assoc] at hstarts
    exact hstart (List.append_cancel_left hwhole ▸ hstarts)

/-- By induction on the rest of the text: the places are tried from the left. -/
theorem reports_findFrom (hx : u ++ rest = x) :
    Reports (fun o : p.Occurrence x => u <+: o.front)
      ((p.findFrom u.getLast? rest).map fun found =>
        (u.length + found.1, u.length + found.2)) := by
  have hfront : ∀ o : p.Occurrence x, o.front <+: u ++ rest := by
    intro o
    rw [hx]
    exact ⟨o.digits ++ o.letters ++ o.ending ++ o.back, by simpa using o.whole⟩
  induction rest generalizing u with
  | nil =>
    refine (reports_here hx).congr ?_ ?_
    · intro o
      have hle := hfront o
      rw [List.append_nil] at hle
      exact ⟨fun ho => (ho.eq_of_length_le hle.length_le).symm, fun ho => ho ▸ List.prefix_rfl⟩
    · simp [findFrom_nil, Function.comp_def]
  | cons c t ih =>
    have hlater := ih (u := u ++ [c]) (by simpa using hx) (by simpa using hfront)
    rw [List.getLast?_concat] at hlater
    refine ((reports_here hx).or hlater ?_).congr ?_ ?_
    · rintro o o' rfl ho'
      have hlonger := ho'.length_le
      simp only [List.length_append, List.length_singleton] at hlonger
      refine ⟨?_, fun heq => ?_⟩
      · rw [Occurrence.start, Occurrence.start]
        omega
      · rw [Occurrence.start, Occurrence.start] at heq
        omega
    · intro o
      rw [prefix_iff (hfront o), or_comm]
    · rw [findFrom_cons, Option.map_or, Option.map_map, Option.map_map]
      simp only [Function.comp_def, List.length_append, List.length_singleton, Nat.add_assoc,
        Nat.add_comm 1, Nat.add_zero]

end Search

/-! ## Every search -/

/-- **The search reports the best occurrence**: nothing is found exactly where there is no
occurrence, and else the ends of one that begins furthest left, among those has most digits in front
of the letters, and among those goes on to the plural. -/
theorem find_reports_best (p : Pattern) (x : Text) :
    (p.find x = none ↔ ¬ Nonempty (p.Occurrence x)) ∧
    ∀ i l, p.find x = some (i, l) →
      ∃ o : p.Occurrence x, o.start = i ∧ o.stop = l ∧ ∀ o', o.AtLeast o' := by
  have hfind : Reports (fun o : p.Occurrence x => [] <+: o.front) (p.find x) := by
    have hfrom := reports_findFrom (p := p) (show [] ++ x = x from rfl)
    simpa [find] using hfrom
  have hall : Reports (fun _ : p.Occurrence x => True) (p.find x) :=
    hfind.congr (fun o => by simp) rfl
  cases hresult : p.find x with
  | none =>
    rw [hresult] at hall
    refine ⟨⟨fun _ ⟨o⟩ => hall o trivial, fun _ => rfl⟩, ?_⟩
    intro i l h
    cases h
  | some found =>
    obtain ⟨i, l⟩ := found
    rw [hresult] at hall
    obtain ⟨o, -, hi, hl, hbest⟩ := hall
    refine ⟨⟨by simp, fun hnone => absurd ⟨o⟩ hnone⟩, ?_⟩
    intro i' l' h
    cases h
    exact ⟨o, hi, hl, fun o' => hbest o' trivial⟩

/-- A term that begins with digits leaves room for more of them in front of it. -/
example : (including "12cat").find "a 1212cats" = some (2, 10) := by cbv

end Pattern

end GalleryScan
