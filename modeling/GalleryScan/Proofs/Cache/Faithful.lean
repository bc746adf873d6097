import GalleryScan.Proofs.Cache.Overlay
import GalleryScan.Proofs.Cache.RoundTrip

/-!
# A cache in use

However loads, batches of records and saves follow upon each other, the entries keep to one form:
no key is missing, none comes twice, each is that of the object kept under it, and the entry is a
record where its object has an address:

> `(uses.foldl Cache.after (ofUser output username)).entries.Faithful`

Batches compose on entries of this form. The same batch twice is the batch once, and one batch
behind another is both in one.
-/

set_option autoImplicit false

namespace GalleryScan

/-! ## The form of entries -/

/-- The object kept in the entry has the key's id, and the entry is the record of that object, if it
is one, which takes an address. -/
structure CacheEntry.Faithful (k : Key) (e : CacheEntry) : Prop where
  present : k ≠ .absent
  key : Key.of? ((Json.object e.raw).get "id") = .ok k
  record : e.record? = Record.ofMembers? e.raw
  usable : e.record?.isSome = ((Json.object e.raw).get "url").isTruthy

namespace Entries

/-- Keys are unique, and each entry is faithful to the object that it keeps. -/
structure Faithful (es : Entries) : Prop where
  keys : (es.map Prod.fst).Nodup
  entries : ∀ x ∈ es, x.2.Faithful x.1

variable {es es₀ : Entries} {k : Key} {e : CacheEntry} {members : List (Text × Json)}

theorem faithful_nil : Faithful [] := ⟨List.nodup_nil, List.forall_mem_nil _⟩

theorem Faithful.set (h : es.Faithful) (he : e.Faithful k) : Faithful (es.set k e) := by
  refine ⟨nodup_set h.keys, ?_⟩
  intro x hx
  rcases mem_set hx with rfl | hx
  · exact he
  · exact h.entries x hx

theorem ne_absent_of_present {id : Json} (hnull : id.isNull = false) (hk : Key.of? id = .ok k) :
    k ≠ .absent := by
  rintro rfl
  cases id with
  | null => cases hnull
  | real x =>
    rw [Key.of?] at hk
    cases hwhole : x.whole? <;> simp [hwhole] at hk
  | _ => cases hk

theorem isSome_ofMembers? (hnull : ((Json.object members).get "id").isNull = false) :
    (Record.ofMembers? members).isSome = ((Json.object members).get "url").isTruthy := by
  unfold Record.ofMembers?
  dsimp only
  rw [hnull, Bool.false_or]
  cases ((Json.object members).get "url").isTruthy <;> rfl

/-- What is kept of an object with an id is faithful to it, a record or not. -/
theorem faithful_of_raw (hraw : e.raw = members)
    (hnull : ((Json.object members).get "id").isNull = false)
    (hk : Key.of? ((Json.object members).get "id") = .ok k)
    (hrecord : e.record? = Record.ofMembers? members) : e.Faithful k := by
  subst hraw
  exact ⟨ne_absent_of_present hnull hk, hk, hrecord, hrecord ▸ isSome_ofMembers? hnull⟩

theorem faithful_entryOf (hnull : ((Json.object members).get "id").isNull = false)
    (hk : Key.of? ((Json.object members).get "id") = .ok k) : (entryOf members).2.Faithful k := by
  refine faithful_of_raw (raw_entryOf members) hnull hk ?_
  unfold entryOf
  cases Record.ofMembers? members <;> rfl

/-- The record is one of an item. -/
def OfItem (r : Record) : Prop := ∃ item, Record.ofJson? item = .ok r

theorem faithful_of_record {r : Record} (h : OfItem r) (hk : Key.of? r.id = .ok k) :
    (CacheEntry.record r).Faithful k := by
  obtain ⟨item, hitem⟩ := h
  cases item with
  | object members =>
    rw [Record.ofJson?] at hitem
    cases hmembers : Record.ofMembers? members with
    | none =>
      rw [hmembers] at hitem
      cases hitem
    | some t =>
      rw [hmembers] at hitem
      cases hitem
      obtain ⟨hnull, hid, hraw⟩ := ofMembers?_eq_some hmembers
      exact faithful_of_raw hraw hnull (hid ▸ hk) hmembers.symm
  | _ => cases hitem

/-! ## Batches -/

/-- Where all items have keys that are known, laying them over changes no key. -/
theorem Overlaid.again {items : List Record} (h : Overlaid es₀ items es)
    (hnodup : (es.map Prod.fst).Nodup) : es.insertAll items = (es, .ok ()) := by
  obtain ⟨es', hinsert⟩ := insertAll_ok h.keyed es
  have hagain := (overlaid_nil es).insertAll hinsert
  rw [List.nil_append] at hagain
  have hknown : ∀ k ∈ items.filterMap Record.key?, k ∈ es.map Prod.fst := by
    intro k hk
    rw [h.keys, List.mem_append, List.mem_eraseDups, List.mem_filter]
    by_cases hold : k ∈ es₀.map Prod.fst
    · exact .inl hold
    · exact .inr ⟨hk, decide_eq_true hold⟩
  have hnew : (items.filterMap Record.key?).filter (· ∉ es.map Prod.fst) = [] :=
    List.filter_eq_nil_iff.mpr fun k hk => by simpa using hknown k hk
  have hsame : es' = es := by
    refine eq_of_lookup hnodup ?_ fun k => ?_
    · rw [hagain.keys, hnew, List.eraseDups_nil, List.append_nil]
    · rw [hagain.entries, h.entries]
      cases lastOf items k <;> rfl
  rw [hinsert, hsame]

theorem insertAll_append {es' : Entries} {rs : List Record}
    (h : es.insertAll rs = (es', .ok ())) (more : List Record) :
    es.insertAll (rs ++ more) = es'.insertAll more := by
  induction rs generalizing es with
  | nil =>
    cases h
    rfl
  | cons r rs ih =>
    rw [Entries.insertAll] at h
    rw [List.cons_append, Entries.insertAll]
    cases hk : Key.of? r.id with
    | error fault =>
      rw [hk] at h
      cases h
    | ok k =>
      rw [hk] at h
      exact ih h

end Entries

/-! ## Uses -/

namespace Cache

/-- What may be done with a cache. -/
inductive Use where
  | load (d : Disk)
  | insertAll (rs : List Record)
  | save (d : Disk)

/-- The records of a batch are those of items. -/
def Use.IsOfItems : Use → Prop
  | .insertAll rs => ∀ r ∈ rs, Entries.OfItem r
  | _ => True

/-- The cache after a use. A save gives back a disk, and the cache stays as it is. -/
def after (c : Cache) : Use → Cache
  | .load d => (c.load d).2.1
  | .insertAll rs => (c.insertAll rs).1
  | .save _ => c

theorem faithful_load (c : Cache) (d : Disk) : (c.load d).2.1.entries.Faithful := by
  rcases entries_load c d with hnone | ⟨items, _, hread⟩
  · rw [hnone]
    exact Entries.faithful_nil
  · exact Entries.readItems_keeps Entries.faithful_nil
      (fun _ _ _ _ hnull hk hes => hes.set (Entries.faithful_entryOf hnull hk)) hread

theorem faithful_after {c : Cache} {u : Use} (h : c.entries.Faithful) (hu : u.IsOfItems) :
    (c.after u).entries.Faithful := by
  cases u with
  | load d => exact faithful_load c d
  | insertAll rs =>
    exact Entries.insertAll_keeps h
      fun _ r _ hr hk hes => hes.set (Entries.faithful_of_record (hu r hr) hk)
  | save d => exact h

/-- By induction on the uses. -/
theorem faithful_foldl {c : Cache} (h : c.entries.Faithful) (uses : List Use)
    (hitems : ∀ u ∈ uses, u.IsOfItems) : (uses.foldl after c).entries.Faithful := by
  induction uses generalizing c with
  | nil => exact h
  | cons u uses ih =>
    exact ih (faithful_after h (hitems u (List.mem_cons_self ..)))
      fun v hv => hitems v (List.mem_cons_of_mem _ hv)

/-! ## Records -/

variable (c : Cache)

/-- The records are the entries that are records, in their order. -/
theorem records_eq_filter : c.records.map CacheEntry.record
    = (c.entries.map Prod.snd).filter fun e => e.record?.isSome := by
  show (c.entries.filterMap fun x => x.2.record?).map CacheEntry.record = _
  induction c.entries with
  | nil => rfl
  | cons x es ih =>
    rw [List.map_cons, List.filter_cons]
    cases hx : x.2 with
    | record r =>
      rw [List.filterMap_cons_some (by rw [hx]; rfl), List.map_cons, ih]
      rfl
    | bare members =>
      rw [List.filterMap_cons_none (by rw [hx]; rfl), ih]
      rfl

theorem isEmpty_iff_records : c.isEmpty = true ↔ c.records = [] := List.isEmpty_iff

theorem isEmpty_iff_no_url {c : Cache} (h : c.entries.Faithful) : c.isEmpty = true ↔
    ∀ x ∈ c.entries, ((Json.object x.2.raw).get "url").isTruthy = false := by
  rw [isEmpty_iff_records]
  show c.entries.filterMap _ = [] ↔ _
  rw [List.filterMap_eq_nil_iff]
  refine forall₂_congr fun x hx => ?_
  rw [← (h.entries x hx).usable, Option.isSome_eq_false_iff, Option.isNone_iff_eq_none]

example : (⟨[], [(.text "b", .bare [("id", .text "b")])], []⟩ : Cache).isEmpty = true := by decide

/-- Whatever has been done with a user's cache, its entries are faithful to the objects they keep,
and a batch of records with keys changes of them what it has to: known keys keep their places, new
ones come last in the order of the batch, and under each key of the batch there is the last record
that has it. Doing so again changes nothing, and more records behind the batch might as well have
come with it. The cache counts as empty where no object has an address, however many there are. -/
theorem faithful_in_use (output username : Text) (uses : List Use)
    (hitems : ∀ u ∈ uses, u.IsOfItems) :
    let c := uses.foldl after (ofUser output username)
    c.entries.Faithful
      ∧ (∀ rs, (∀ r ∈ rs, r.key?.isSome) →
          ∃ c', c.insertAll rs = (c', .ok ()) ∧ Entries.Overlaid c.entries rs c'.entries
            ∧ c'.insertAll rs = (c', .ok ())
            ∧ ∀ more, c.insertAll (rs ++ more) = c'.insertAll more)
      ∧ c.records.map CacheEntry.record
          = (c.entries.map Prod.snd).filter (fun e => e.record?.isSome)
      ∧ (c.isEmpty = true ↔ c.records = [])
      ∧ (c.isEmpty = true ↔
          ∀ x ∈ c.entries, ((Json.object x.2.raw).get "url").isTruthy = false) := by
  intro c
  have hfaithful : c.entries.Faithful := faithful_foldl Entries.faithful_nil uses hitems
  refine ⟨hfaithful, ?_, records_eq_filter c, isEmpty_iff_records c, isEmpty_iff_no_url hfaithful⟩
  intro rs hkeys
  obtain ⟨es, hinsert⟩ := Entries.insertAll_ok hkeys c.entries
  have hoverlaid := (Entries.overlaid_nil c.entries).insertAll hinsert
  rw [List.nil_append] at hoverlaid
  have hnodup : (es.map Prod.fst).Nodup := by
    have hkept : ((c.entries.insertAll rs).1.map Prod.fst).Nodup :=
      Entries.insertAll_keeps (P := fun es => (es.map Prod.fst).Nodup) hfaithful.keys
        fun _ _ _ _ _ h => Entries.nodup_set h
    rwa [hinsert] at hkept
  refine ⟨{ c with entries := es }, ?_, hoverlaid, ?_, ?_⟩
  · rw [Cache.insertAll, hinsert]
  · rw [Cache.insertAll, hoverlaid.again hnodup]
  · intro more
    rw [Cache.insertAll, Cache.insertAll, Entries.insertAll_append hinsert]

end Cache

namespace TwoEntries

/-- An address for the item that has none, and an image whose id is equal to that of the first. -/
def batch : List Record :=
  [⟨.text "b", "v", none, [("id", .text "b"), ("url", .text "v")]⟩,
    ⟨.bool true, "w", none, [("id", .bool true), ("url", .text "w")]⟩]

def uses : List Cache.Use := [.load disk, .insertAll batch, .save disk]

theorem ofItems_uses : ∀ u ∈ uses, u.IsOfItems := by
  intro u hu
  simp only [uses, List.mem_cons, List.not_mem_nil, or_false] at hu
  rcases hu with rfl | rfl | rfl
  · trivial
  · intro r hr
    simp only [batch, List.mem_cons, List.not_mem_nil, or_false] at hr
    rcases hr with rfl | rfl
    · exact ⟨.object [("id", .text "b"), ("url", .text "v")], by cbv⟩
    · exact ⟨.object [("id", .bool true), ("url", .text "w")], by cbv⟩
  · trivial

/-- At a cache that is loaded, given the batch and saved: both entries are in their places. -/
theorem faithful_in_use_both :
    let c := uses.foldl Cache.after (Cache.ofUser "out" "ann")
    c.entries.map Prod.fst = [.whole 1, .text "b"]
      ∧ c.records.map Record.url = ["w", "v"]
      ∧ c.entries.Faithful
      ∧ ∃ c', c.insertAll batch = (c', .ok ()) ∧ Entries.Overlaid c.entries batch c'.entries
        ∧ c'.insertAll batch = (c', .ok ())
        ∧ ∀ more, c.insertAll (batch ++ more) = c'.insertAll more := by
  intro c
  have hc : c = cache.after (.insertAll batch) := by
    show (((Cache.ofUser "out" "ann").load disk).2.1).after (.insertAll batch) = _
    rw [load_stored]
  obtain ⟨hfaithful, hbatch, -⟩ := Cache.faithful_in_use "out" "ann" uses ofItems_uses
  refine ⟨?_, ?_, hfaithful, hbatch batch (by decide)⟩
  · rw [hc]
    cbv
  · rw [hc]
    cbv

end TwoEntries

end GalleryScan
