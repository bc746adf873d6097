import GalleryScan.Cache.Key
import GalleryScan.Gallery.Record
import GalleryScan.Query.Filter
import Mathlib.Data.Finset.Card
import Mathlib.Data.List.Infix

/-!
# What a scan is to find

The answer to a scan, said without the scan: which ids match, which record stands for each of them,
and how far into the items one has to look for a number of them. Everything here is about a list of
items and a filter; that the loop over pages computes it is the matter of `Scan/Selection`.
-/

set_option autoImplicit false

namespace GalleryScan

/-- The key of a record's id, if that is one. -/
def Record.key? (r : Record) : Option Key := (Key.of? r.id).toOption

theorem Record.key?_eq_some {r : Record} {k : Key} (h : Key.of? r.id = .ok k) :
    r.key? = some k := by
  rw [Record.key?, h]
  rfl

theorem Record.exists_key {r : Record} (h : r.key?.isSome) : ∃ k, Key.of? r.id = .ok k := by
  cases hid : Key.of? r.id with
  | ok k => exact ⟨k, rfl⟩
  | error fault => simp [Record.key?, hid, Except.toOption] at h

namespace Filter

variable (f : Filter)

/-- The items that pass. -/
def passing (items : List Record) : List Record := items.filter fun r => f.accepts r.prompt

/-- The different ids among the items that pass. -/
def matchedIds (items : List Record) : Finset (Option Key) :=
  ((f.passing items).map Record.key?).toFinset

/-- The first of the passing items with each id. -/
def firstMatches (items : List Record) : List Record :=
  (f.passing items).eraseDupsBy fun r t => r.key? == t.key?

/-- The shortest beginning of the items with `n` different matching ids; all of them where there
are fewer. -/
def lookedAt (n : Nat) (items : List Record) : List Record :=
  (items.inits.find? fun p => n ≤ (f.matchedIds p).card).getD items

end Filter

/-! ## First occurrences by key -/

section FirstByKey

variable {α β : Type} [BEq β] [LawfulBEq β]

/-- First occurrences in a longer list: those of its front, and behind it what is new. -/
theorem eraseDupsBy_append (g : α → β) : ∀ as bs : List α,
    (as ++ bs).eraseDupsBy (fun a b => g a == g b)
      = as.eraseDupsBy (fun a b => g a == g b)
        ++ (bs.filter fun b => !(as.map g).contains (g b)).eraseDupsBy (fun a b => g a == g b) := by
  intro as
  induction h : as.length using Nat.strongRecOn generalizing as with
  | ind n ih =>
    subst h
    intro bs
    cases as with
    | nil => simp
    | cons a as =>
      rw [List.cons_append, List.eraseDupsBy_cons, List.eraseDupsBy_cons, List.filter_append,
        ih _ (Nat.lt_succ_of_le (List.length_filter_le _ as)) _ rfl, List.cons_append,
        List.filter_filter]
      congr 3
      apply List.filter_congr
      intro b _
      -- An earlier item with the key of `b` was kept unless it has the key of `a` as well.
      by_cases hb : g b = g a
      · simp [hb]
      · have hmem : g b ∈ (as.filter fun c => decide ((g c == g a) = false)).map g
            ↔ g b ∈ as.map g := by
          simp only [List.mem_map, List.mem_filter]
          constructor
          · rintro ⟨c, ⟨hc, -⟩, he⟩
            exact ⟨c, hc, he⟩
          · rintro ⟨c, hc, he⟩
            exact ⟨c, ⟨hc, by simpa [he] using hb⟩, he⟩
        simp only [List.map_cons, List.contains_eq_mem, hmem, List.mem_cons, hb, false_or,
          beq_false_of_ne hb, decide_true, Bool.and_true]

theorem eraseDupsBy_concat (g : α → β) (as : List α) (b : α) :
    (as ++ [b]).eraseDupsBy (fun a b => g a == g b)
      = as.eraseDupsBy (fun a b => g a == g b) ++ if g b ∈ as.map g then [] else [b] := by
  rw [eraseDupsBy_append]
  by_cases hb : g b ∈ as.map g
  · rw [if_pos hb, List.filter_cons_of_neg (by simpa using hb), List.filter_nil,
      List.eraseDupsBy_nil]
  · rw [if_neg hb, List.filter_cons_of_pos (by simpa using hb), List.filter_nil,
      List.eraseDupsBy_cons, List.filter_nil, List.eraseDupsBy_nil]

end FirstByKey

namespace Filter

variable (f : Filter)

/-! ## One item more -/

theorem passing_append (xs ys : List Record) :
    f.passing (xs ++ ys) = f.passing xs ++ f.passing ys := List.filter_append ..

/-- The item is a match of an id that none before it has. -/
def IsNew (seen : List Record) (r : Record) : Prop :=
  f.accepts r.prompt = true ∧ r.key? ∉ f.matchedIds seen

theorem mem_matchedIds {items : List Record} {k : Option Key} :
    k ∈ f.matchedIds items ↔ k ∈ (f.passing items).map Record.key? := List.mem_toFinset

theorem firstMatches_concat_new {seen : List Record} {r : Record} (h : f.IsNew seen r) :
    f.firstMatches (seen ++ [r]) = f.firstMatches seen ++ [r] := by
  have hr : f.passing [r] = [r] := by simp [passing, h.1]
  rw [firstMatches, passing_append, hr, eraseDupsBy_concat,
    if_neg fun hm => h.2 ((f.mem_matchedIds).mpr hm)]
  rfl

theorem firstMatches_concat_old {seen : List Record} {r : Record} (h : ¬ f.IsNew seen r) :
    f.firstMatches (seen ++ [r]) = f.firstMatches seen := by
  by_cases hp : f.accepts r.prompt = true
  · have hr : f.passing [r] = [r] := by simp [passing, hp]
    have hm : r.key? ∈ (f.passing seen).map Record.key? := by
      by_contra hm
      exact h ⟨hp, fun hk => hm ((f.mem_matchedIds).mp hk)⟩
    rw [firstMatches, passing_append, hr, eraseDupsBy_concat, if_pos hm, List.append_nil]
    rfl
  · rw [firstMatches, passing_append, show f.passing [r] = [] by simp [passing, hp],
      List.append_nil]
    rfl

theorem matchedIds_concat_new {seen : List Record} {r : Record} (h : f.IsNew seen r) :
    f.matchedIds (seen ++ [r]) = insert r.key? (f.matchedIds seen) := by
  ext k
  simp [matchedIds, passing, h.1]

theorem card_matchedIds_concat {seen : List Record} {r : Record} (h : f.IsNew seen r) :
    (f.matchedIds (seen ++ [r])).card = (f.matchedIds seen).card + 1 := by
  rw [f.matchedIds_concat_new h, Finset.card_insert_of_notMem h.2]

theorem matchedIds_concat_old {seen : List Record} {r : Record} (h : ¬ f.IsNew seen r) :
    f.matchedIds (seen ++ [r]) = f.matchedIds seen := by
  ext k
  by_cases hp : f.accepts r.prompt = true
  · have hr : r.key? ∈ f.matchedIds seen := by
      by_contra hk
      exact h ⟨hp, hk⟩
    simp only [mem_matchedIds, passing_append, List.map_append, List.mem_append] at hr ⊢
    simp only [passing, List.filter_cons, hp, if_true, List.filter_nil, List.map_cons,
      List.map_nil, List.mem_singleton]
    exact ⟨fun hk => hk.elim id fun hk => hk ▸ hr, Or.inl⟩
  · simp [matchedIds, passing, hp]

/-- There are as many first matches as matching ids. -/
theorem length_firstMatches (items : List Record) :
    (f.firstMatches items).length = (f.matchedIds items).card := by
  induction items using List.reverseRecOn with
  | nil => rfl
  | append_singleton items r ih =>
    by_cases h : f.IsNew items r
    · rw [f.firstMatches_concat_new h, f.card_matchedIds_concat h, List.length_append, ih]
      rfl
    · rw [f.firstMatches_concat_old h, f.matchedIds_concat_old h, ih]

/-- The first matches carry all the matching ids. -/
theorem mem_map_firstMatches {items : List Record} {k : Option Key} :
    k ∈ (f.firstMatches items).map Record.key? ↔ k ∈ f.matchedIds items := by
  induction items using List.reverseRecOn with
  | nil => simp [firstMatches, matchedIds, passing]
  | append_singleton items r ih =>
    by_cases h : f.IsNew items r
    · rw [f.firstMatches_concat_new h, f.matchedIds_concat_new h, List.map_append,
        List.mem_append, ih, Finset.mem_insert, or_comm, List.map_singleton, List.mem_singleton]
    · rw [f.firstMatches_concat_old h, f.matchedIds_concat_old h, ih]

/-! ## How far to look -/

theorem matchedIds_mono {xs ys : List Record} (h : xs <+: ys) :
    (f.matchedIds xs).card ≤ (f.matchedIds ys).card := by
  obtain ⟨zs, rfl⟩ := h
  apply Finset.card_le_card
  intro k hk
  rw [mem_matchedIds] at hk ⊢
  rw [passing_append, List.map_append]
  exact List.mem_append_left _ hk

theorem find?_inits_of_lt {n : Nat} {items : List Record} (h : (f.matchedIds items).card < n) :
    (items.inits.find? fun p => n ≤ (f.matchedIds p).card) = none := by
  rw [List.find?_eq_none]
  intro p hp
  have := f.matchedIds_mono ((List.mem_inits p items).mp hp)
  simp only [decide_eq_true_eq]
  omega

/-- With too few matches there is no end before the last item. -/
theorem lookedAt_of_lt {n : Nat} {items : List Record} (h : (f.matchedIds items).card < n) :
    f.lookedAt n items = items := by
  rw [lookedAt, f.find?_inits_of_lt h]
  rfl

/-- Only the last item may supply the match that is the last one asked for. -/
theorem lookedAt_concat {n : Nat} {items : List Record} (h : (f.matchedIds items).card < n)
    (r : Record) : f.lookedAt n (items ++ [r]) = items ++ [r] := by
  rw [lookedAt, List.inits_append, List.find?_append, f.find?_inits_of_lt h]
  have hlast : [r].inits.tail.map (items ++ ·) = [items ++ [r]] := by simp
  rw [Option.none_or, hlast, List.find?_singleton]
  split <;> rfl

theorem exists_lookedAt {n : Nat} {items : List Record} (h : n ≤ (f.matchedIds items).card) :
    ∃ p, (items.inits.find? fun p => n ≤ (f.matchedIds p).card) = some p := by
  cases hp : items.inits.find? fun p => n ≤ (f.matchedIds p).card with
  | some p => exact ⟨p, rfl⟩
  | none =>
    have := List.find?_eq_none.mp hp items ((List.mem_inits items items).mpr List.prefix_rfl)
    simp [h] at this

/-- Once there are enough matches, what comes later is not looked at. -/
theorem lookedAt_append {n : Nat} {items : List Record} (h : n ≤ (f.matchedIds items).card)
    (more : List Record) : f.lookedAt n (items ++ more) = f.lookedAt n items := by
  obtain ⟨p, hp⟩ := f.exists_lookedAt h
  rw [lookedAt, lookedAt, List.inits_append, List.find?_append, hp]
  rfl

theorem le_matchedIds_lookedAt {n : Nat} {items : List Record}
    (h : n ≤ (f.matchedIds items).card) : n ≤ (f.matchedIds (f.lookedAt n items)).card := by
  obtain ⟨p, hp⟩ := f.exists_lookedAt h
  rw [lookedAt, hp]
  simpa using List.find?_some hp

end Filter

end GalleryScan
