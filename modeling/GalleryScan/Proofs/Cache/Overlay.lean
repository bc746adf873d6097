import GalleryScan.Proofs.Cache.Sound
import GalleryScan.Proofs.Scan.Matches
import Mathlib.Data.List.Nodup

/-!
# Items laid over entries

What a cache holds after batches of items is told by the entries before and the items alone, however
the items came in batches. No entry goes and none changes its place; keys that are new come behind
them in the order of the items; and under each key there is the last item that has it, or else what
was there before:

> `Overlaid es₀ items es → es.insertAll more = (es', .ok ()) → Overlaid es₀ (items ++ more) es'`

This pins the entries down: there is but one list of them for given entries before and items.
-/

set_option autoImplicit false

namespace GalleryScan

namespace Entries

/-- The last of the items with a key. -/
def lastOf (items : List Record) (k : Key) : Option Record :=
  items.reverse.find? fun r => r.key? = some k

/-- The entries are those before, with the items laid over them and new ones put behind them. -/
structure Overlaid (es₀ : Entries) (items : List Record) (es : Entries) : Prop where
  keyed : ∀ r ∈ items, r.key?.isSome
  keys : es.map Prod.fst = es₀.map Prod.fst
    ++ ((items.filterMap Record.key?).filter (· ∉ es₀.map Prod.fst)).eraseDups
  entries : ∀ k, es.lookup k = ((lastOf items k).map .record).or (es₀.lookup k)

variable {es₀ es es' : Entries} {items : List Record}

/-! ## One item more -/

theorem lookup_set (k : Key) (e : CacheEntry) (es : Entries) (l : Key) :
    (es.set k e).lookup l = if l = k then some e else es.lookup l := by
  induction es with
  | nil =>
    rw [set, List.lookup_cons]
    by_cases hl : l = k
    · simp [hl]
    · simp [hl, beq_false_of_ne hl]
  | cons x xs ih =>
    rw [set]
    by_cases hx : x.1 = k
    · rw [if_pos hx, List.lookup_cons, List.lookup_cons, hx]
      by_cases hl : l = k
      · simp [hl]
      · simp [hl, beq_false_of_ne hl]
    · rw [if_neg hx, List.lookup_cons, List.lookup_cons, ih]
      by_cases hl : l = x.1
      · simp [hl, hx]
      · simp [beq_false_of_ne hl]

theorem lastOf_concat (items : List Record) (r : Record) (k : Key) :
    lastOf (items ++ [r]) k = if r.key? = some k then some r else lastOf items k := by
  rw [lastOf, List.reverse_concat, List.find?_cons]
  by_cases hr : r.key? = some k
  · simp [hr]
  · simp [hr, lastOf]

theorem eraseDups_concat {α : Type} [BEq α] [LawfulBEq α] (as : List α) (a : α) :
    (as ++ [a]).eraseDups = as.eraseDups ++ if a ∈ as then [] else [a] := by
  have h := eraseDupsBy_concat id as a
  rwa [List.map_id] at h

theorem overlaid_nil (es₀ : Entries) : Overlaid es₀ [] es₀ :=
  ⟨List.forall_mem_nil _, (List.append_nil _).symm, fun _ => rfl⟩

/-- A known key keeps its place, a new one goes last. -/
theorem keys_set (k : Key) (e : CacheEntry) (es : Entries) : (es.set k e).map Prod.fst
    = es.map Prod.fst ++ if k ∈ es.map Prod.fst then [] else [k] := by
  by_cases hk : k ∈ es.map Prod.fst
  · rw [if_pos hk, keys_set_of_mem hk, List.append_nil]
  · rw [if_neg hk, set_of_notMem hk, List.map_append, List.map_singleton]

theorem Overlaid.set {r : Record} {k : Key} (h : Overlaid es₀ items es)
    (hk : r.key? = some k) : Overlaid es₀ (items ++ [r]) (es.set k (.record r)) where
  keyed := by
    intro t ht
    rcases List.mem_append.mp ht with ht | ht
    · exact h.keyed t ht
    · rw [List.mem_singleton.mp ht, hk]
      rfl
  keys := by
    rw [keys_set, h.keys, List.filterMap_append, List.filter_append]
    have hone : [r].filterMap Record.key? = [k] := by rw [List.filterMap_cons_some hk]; rfl
    rw [hone]
    by_cases hold : k ∈ es₀.map Prod.fst
    · rw [if_pos (List.mem_append_left _ hold), List.filter_cons_of_neg (by simpa using hold),
        List.filter_nil, List.append_nil, List.append_nil]
    · rw [List.filter_cons_of_pos (by simpa using hold), List.filter_nil, eraseDups_concat,
        List.append_assoc]
      simp only [List.mem_append, List.mem_eraseDups, hold, false_or]
  entries := by
    intro l
    rw [lookup_set, lastOf_concat, hk, h.entries]
    by_cases hl : l = k
    · simp [hl]
    · rw [if_neg hl, if_neg fun heq => hl (Option.some.inj heq).symm]

/-- A batch of items with keys does not end early. -/
theorem insertAll_ok (hkeys : ∀ r ∈ items, r.key?.isSome) (es : Entries) :
    ∃ es', es.insertAll items = (es', .ok ()) := by
  induction items generalizing es with
  | nil => exact ⟨es, rfl⟩
  | cons r rs ih =>
    obtain ⟨k, hk⟩ := Record.exists_key (hkeys r (List.mem_cons_self ..))
    obtain ⟨es', he⟩ := ih (fun t ht => hkeys t (List.mem_cons_of_mem _ ht)) (es.set k (.record r))
    exact ⟨es', by rw [Entries.insertAll, hk]; exact he⟩

/-- By induction on the batch. -/
theorem Overlaid.insertAll {more : List Record} (h : Overlaid es₀ items es)
    (hinsert : es.insertAll more = (es', .ok ())) : Overlaid es₀ (items ++ more) es' := by
  induction more generalizing items es with
  | nil =>
    cases hinsert
    rwa [List.append_nil]
  | cons r rs ih =>
    rw [Entries.insertAll] at hinsert
    cases hk : Key.of? r.id with
    | error fault =>
      rw [hk] at hinsert
      cases hinsert
    | ok k =>
      rw [hk] at hinsert
      have hrest := ih (h.set (Record.key?_eq_some hk)) hinsert
      rwa [List.append_assoc] at hrest

/-! ## What is laid over determines the entries -/

/-- Entries with the same keys, each of them once, are the same if they are so under every key. -/
theorem eq_of_lookup (hnodup : (es.map Prod.fst).Nodup)
    (hkeys : es'.map Prod.fst = es.map Prod.fst) (h : ∀ k, es'.lookup k = es.lookup k) :
    es' = es := by
  induction es generalizing es' with
  | nil => exact List.map_eq_nil_iff.mp hkeys
  | cons x xs ih =>
    cases es' with
    | nil => cases hkeys
    | cons y ys =>
      rw [List.map_cons, List.map_cons, List.cons.injEq] at hkeys
      rw [List.map_cons, List.nodup_cons] at hnodup
      have hfirst := h x.1
      rw [List.lookup_cons, List.lookup_cons, hkeys.1, beq_self_eq_true] at hfirst
      have hxy : y = x := Prod.ext hkeys.1 (Option.some.inj hfirst)
      rw [hxy, ih hnodup.2 hkeys.2]
      intro k
      by_cases hk : k = x.1
      · -- The first key is in none of the entries behind it.
        have hnone : ∀ zs : Entries, zs.map Prod.fst = xs.map Prod.fst → zs.lookup k = none := by
          intro zs hzs
          rw [List.lookup_eq_none_iff]
          intro z hz
          rw [bne_iff_ne]
          rintro rfl
          exact hnodup.1 (hk ▸ hzs ▸ List.mem_map_of_mem hz)
        rw [hnone ys hkeys.2, hnone xs rfl]
      · have hrest := h k
        rwa [List.lookup_cons, List.lookup_cons, hkeys.1, beq_false_of_ne hk] at hrest

theorem Overlaid.unique (h : Overlaid es₀ items es) (h' : Overlaid es₀ items es')
    (hnodup : (es.map Prod.fst).Nodup) : es' = es :=
  eq_of_lookup hnodup (h'.keys.trans h.keys.symm) fun k => (h'.entries k).trans (h.entries k).symm

/-! ## Items with different keys -/

/-- Laid over nothing, such items give an entry each, in their order. -/
theorem exists_overlaid (hkeyed : ∀ r ∈ items, r.key?.isSome)
    (hdistinct : (items.map Record.key?).Nodup) : ∃ es, Overlaid [] items es
      ∧ es.records = items ∧ es.map (some ∘ Prod.fst) = items.map Record.key? := by
  induction items using List.reverseRecOn with
  | nil => exact ⟨[], overlaid_nil [], rfl, rfl⟩
  | append_singleton items r ih =>
    obtain ⟨k, hk⟩ := Option.isSome_iff_exists.mp
      (hkeyed r (List.mem_append_right _ (List.mem_singleton_self r)))
    rw [List.map_append, List.nodup_append] at hdistinct
    obtain ⟨hbefore, _, hother⟩ := hdistinct
    obtain ⟨es, hes, hrecords, hkeys⟩ :=
      ih (fun t ht => hkeyed t (List.mem_append_left _ ht)) hbefore
    -- An entry takes a new place only because no item before has its key.
    have hnew : k ∉ es.map Prod.fst := by
      intro hmem
      have hknown : some k ∈ items.map Record.key? := by
        rw [← hkeys, ← List.map_map]
        exact List.mem_map_of_mem hmem
      exact hother _ hknown _ (List.mem_singleton.mpr hk.symm) rfl
    refine ⟨es.set k (.record r), hes.set hk, ?_, ?_⟩
    · rw [set_of_notMem hnew, Entries.records, List.filterMap_append]
      exact congrArg (· ++ [r]) hrecords
    · rw [set_of_notMem hnew, List.map_append, List.map_append, hkeys, List.map_singleton,
        List.map_singleton, hk]
      rfl

theorem Overlaid.records_eq (h : Overlaid [] items es)
    (hdistinct : (items.map Record.key?).Nodup) : es.records = items := by
  obtain ⟨es', h', hrecords, hkeys⟩ := exists_overlaid h.keyed hdistinct
  have hnodup : (es'.map Prod.fst).Nodup := by
    rw [← hkeys, ← List.map_map] at hdistinct
    exact hdistinct.of_map some
  rw [h'.unique h hnodup, hrecords]

end Entries

end GalleryScan
