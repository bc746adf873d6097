import GalleryScan.Cache.Store
import GalleryScan.Proofs.Disk.Document
import GalleryScan.Proofs.Json.Decoded

/-!
# What the cache holds at any time

However loads, batches of records and saves follow upon each other, each entry is the one that its
own object yields when it is read as an item of the cache file, under the key that this item has,
and no two entries have one key:

> `Reachable output username c d → c.entries.Sound`

Entries of this kind are read back from the items that they are written as.
-/

set_option autoImplicit false

namespace GalleryScan

/-- The entry is what its object is read as, and its key the one that the object is read under. -/
structure CacheEntry.Sound (k : Key) (e : CacheEntry) : Prop where
  present : ((Json.object e.raw).get "id").isNull = false
  key : Key.of? ((Json.object e.raw).get "id") = .ok k
  entry : (Entries.entryOf e.raw).2 = e
  proper : (Json.object e.raw).Proper

namespace Entries

/-- Keys are unique, and each entry is sound. -/
structure Sound (es : Entries) : Prop where
  keys : (es.map Prod.fst).Nodup
  entries : ∀ x ∈ es, x.2.Sound x.1

theorem sound_nil : Sound [] := ⟨List.nodup_nil, List.forall_mem_nil _⟩

theorem mem_set {k : Key} {e : CacheEntry} {es : Entries} {x : Key × CacheEntry}
    (h : x ∈ es.set k e) : x = (k, e) ∨ x ∈ es := by
  induction es with
  | nil => exact .inl (List.mem_singleton.mp h)
  | cons y ys ih =>
    rw [set] at h
    split at h
    · rename_i hk
      rcases List.mem_cons.mp h with rfl | h
      · exact .inl (by rw [hk])
      · exact .inr (List.mem_cons_of_mem _ h)
    · rcases List.mem_cons.mp h with rfl | h
      · exact .inr (List.mem_cons_self ..)
      · exact (ih h).imp id (List.mem_cons_of_mem _)

theorem set_of_notMem {k : Key} {e : CacheEntry} {es : Entries} (h : k ∉ es.map Prod.fst) :
    es.set k e = es ++ [(k, e)] := by
  induction es with
  | nil => rfl
  | cons y ys ih =>
    rw [List.map_cons, List.mem_cons, not_or] at h
    rw [set, if_neg (Ne.symm h.1), ih h.2]
    rfl

theorem keys_set_of_mem {k : Key} {e : CacheEntry} {es : Entries} (h : k ∈ es.map Prod.fst) :
    (es.set k e).map Prod.fst = es.map Prod.fst := by
  induction es with
  | nil => cases h
  | cons y ys ih =>
    rw [set]
    by_cases hk : y.1 = k
    · rw [if_pos hk]
      rfl
    · rw [List.map_cons, List.mem_cons] at h
      rw [if_neg hk, List.map_cons, ih (h.resolve_left (Ne.symm hk)), List.map_cons]

/-- A known key keeps its place and a new one goes last, so keys stay unique. -/
theorem nodup_set {k : Key} {e : CacheEntry} {es : Entries} (h : (es.map Prod.fst).Nodup) :
    ((es.set k e).map Prod.fst).Nodup := by
  by_cases hk : k ∈ es.map Prod.fst
  · rw [keys_set_of_mem hk]
    exact h
  · rw [set_of_notMem hk, List.map_append]
    refine List.nodup_append.mpr ⟨h, List.nodup_singleton _, ?_⟩
    intro a ha b hb
    rw [List.map_singleton, List.mem_singleton] at hb
    rintro rfl
    rw [hb] at ha
    exact hk ha

theorem Sound.set {k : Key} {e : CacheEntry} {es : Entries} (h : es.Sound) (he : e.Sound k) :
    Sound (es.set k e) := by
  refine ⟨nodup_set h.keys, ?_⟩
  intro x hx
  rcases mem_set hx with rfl | hx
  · exact he
  · exact h.entries x hx

/-! ## Entries of records -/

theorem ofMembers?_eq_some {members : List (Text × Json)} {r : Record}
    (h : Record.ofMembers? members = some r) :
    ((Json.object members).get "id").isNull = false ∧ r.id = (Json.object members).get "id"
      ∧ r.raw = members := by
  unfold Record.ofMembers? at h
  dsimp only at h
  split at h
  · cases h
  · rename_i hnull
    cases h
    rw [Bool.not_eq_true, Bool.or_eq_false_iff] at hnull
    exact ⟨hnull.1, rfl, rfl⟩

/-- The record is one of an item that was read. -/
def OfDecoded (r : Record) : Prop := ∃ item, Json.Decoded item ∧ Record.ofJson? item = .ok r

theorem sound_of_record {r : Record} {k : Key} (h : OfDecoded r) (hk : Key.of? r.id = .ok k) :
    (CacheEntry.record r).Sound k := by
  obtain ⟨item, hitem, hr⟩ := h
  cases item with
  | object members =>
    unfold Record.ofJson? at hr
    cases hm : Record.ofMembers? members with
    | none =>
      simp only [hm] at hr
      cases hr
    | some r' =>
      simp only [hm] at hr
      cases hr
      obtain ⟨hnull, hid, hraw⟩ := ofMembers?_eq_some hm
      refine ⟨?_, ?_, ?_, ?_⟩
      · rwa [CacheEntry.raw, hraw]
      · rwa [CacheEntry.raw, hraw, ← hid]
      · rw [CacheEntry.raw, hraw, entryOf, hm]
      · rw [CacheEntry.raw, hraw]
        exact hitem.proper
  | _ => cases hr

/-- What is kept by every record that is set is kept by a batch of them, which may end early. -/
theorem insertAll_keeps {P : Entries → Prop} {es : Entries} {rs : List Record} (h : P es)
    (hset : ∀ es r k, r ∈ rs → Key.of? r.id = .ok k → P es → P (es.set k (.record r))) :
    P (es.insertAll rs).1 := by
  induction rs generalizing es with
  | nil => exact h
  | cons r rs ih =>
    rw [Entries.insertAll]
    cases hk : Key.of? r.id with
    | error fault => exact h
    | ok k =>
      exact ih (hset es r k (List.mem_cons_self ..) hk h)
        fun es t l ht => hset es t l (List.mem_cons_of_mem _ ht)

theorem Sound.insertAll {es : Entries} (h : es.Sound) {rs : List Record}
    (hrs : ∀ r ∈ rs, OfDecoded r) : Sound (es.insertAll rs).1 :=
  insertAll_keeps h fun _ r _ hr hk hes => hes.set (sound_of_record (hrs r hr) hk)

/-! ## Entries of items -/

theorem raw_entryOf (members : List (Text × Json)) : (entryOf members).2.raw = members := by
  unfold entryOf
  split
  · rename_i r hr
    exact (ofMembers?_eq_some hr).2.2
  · rfl

theorem sound_entryOf {members : List (Text × Json)} {k : Key}
    (hnull : ((Json.object members).get "id").isNull = false)
    (hk : Key.of? ((Json.object members).get "id") = .ok k) (hp : (Json.object members).Proper) :
    (entryOf members).2.Sound k := by
  refine ⟨?_, ?_, ?_, ?_⟩
  · rwa [raw_entryOf]
  · rwa [raw_entryOf]
  · rw [raw_entryOf]
  · rwa [raw_entryOf]

theorem readItems_entry {members : List (Text × Json)} {k : Key} (es : Entries) (items : List Json)
    (hnull : ((Json.object members).get "id").isNull = false)
    (hk : Key.of? ((Json.object members).get "id") = .ok k) :
    readItems es (.object members :: items)
      = ((entryOf members).1 ++ (readItems (es.set k (entryOf members).2) items).1,
        (readItems (es.set k (entryOf members).2) items).2) := by
  rw [readItems]
  · dsimp only
    rw [hk]
  · exact hnull

/-- An item is an entry or is dropped. -/
theorem readItems_cons_eq_ok {es es' : Entries} {item : Json} {items : List Json}
    (h : (readItems es (item :: items)).2 = .ok es') :
    (readItems es items).2 = .ok es' ∨ ∃ members k, item = .object members
      ∧ ((Json.object members).get "id").isNull = false
      ∧ Key.of? ((Json.object members).get "id") = .ok k
      ∧ (readItems (es.set k (entryOf members).2) items).2 = .ok es' := by
  unfold readItems at h
  dsimp only at h
  split at h
  · rename_i hnull
    split at h
    · cases h
    · rename_i hk
      exact .inr ⟨_, _, rfl, hnull, hk, h⟩
  · exact .inl h

/-- What is kept by every item that is set is kept by reading a file of them. -/
theorem readItems_keeps {P : Entries → Prop} {es es' : Entries} {items : List Json} (h : P es)
    (hset : ∀ es members k, .object members ∈ items →
      ((Json.object members).get "id").isNull = false →
      Key.of? ((Json.object members).get "id") = .ok k → P es →
      P (es.set k (entryOf members).2))
    (hread : (es.readItems items).2 = .ok es') : P es' := by
  induction items generalizing es with
  | nil =>
    cases hread
    exact h
  | cons item items ih =>
    have hrest := fun es members k hm => hset es members k (List.mem_cons_of_mem item hm)
    rcases readItems_cons_eq_ok hread with hread | ⟨members, k, rfl, hnull, hk, hread⟩
    · exact ih h hrest hread
    · exact ih (hset es members k (List.mem_cons_self ..) hnull hk h) hrest hread

theorem Sound.readItems {es es' : Entries} (h : es.Sound) {items : List Json}
    (hitems : ∀ x ∈ items, x.Proper) (hread : (es.readItems items).2 = .ok es') : es'.Sound :=
  readItems_keeps h
    (fun _ _ _ hm hnull hk hes => hes.set (sound_entryOf hnull hk (hitems _ hm))) hread

/-- Sound entries are read back from the items that they are written as. -/
theorem Sound.readItems_document {es : Entries} (h : es.Sound) :
    ∃ log, Entries.readItems [] (es.map fun x => .object x.2.raw) = (log, .ok es) := by
  -- The entries read so far come first, with keys that the rest does not have.
  have hover : ∀ before : Entries, ((before ++ es).map Prod.fst).Nodup →
      ∃ log, Entries.readItems before (es.map fun x => .object x.2.raw)
        = (log, .ok (before ++ es)) := by
    have hentries := h.entries
    clear h
    induction es with
    | nil =>
      intro before _
      exact ⟨[], by rw [List.append_nil]; rfl⟩
    | cons x xs ih =>
      intro before hkeys
      have hx := hentries x (List.mem_cons_self ..)
      have hnew : x.1 ∉ before.map Prod.fst := by
        rw [List.map_append, List.nodup_append] at hkeys
        intro hb
        exact hkeys.2.2 _ hb _ (List.mem_cons_self ..) rfl
      obtain ⟨log, hlog⟩ := ih (fun y hy => hentries y (List.mem_cons_of_mem _ hy))
        (before ++ [x]) (by rwa [List.append_assoc])
      rw [List.map_cons, readItems_entry _ _ hx.present hx.key, hx.entry, set_of_notMem hnew, hlog,
        List.append_assoc]
      exact ⟨_, rfl⟩
  exact hover [] h.keys

theorem Sound.document_proper {es : Entries} (h : es.Sound) : es.document.Proper := by
  apply Json.Proper.array
  intro y hy
  obtain ⟨x, hx, rfl⟩ := List.mem_map.mp hy
  exact (h.entries x hx).proper

end Entries

/-! ## Whatever happens to a cache -/

namespace Cache

/-- Loads, batches of records that were read and saves have led from a user's empty cache to this
cache and this disk, whatever else became of the disk in between. -/
inductive Reachable (output username : Text) : Cache → Disk → Prop where
  | fresh (d : Disk) : Reachable output username (ofUser output username) d
  | load (c : Cache) (d : Disk) (before : Reachable output username c d) :
      Reachable output username (c.load d).2.1 d
  | insertAll (c : Cache) (d : Disk) (rs : List Record) (decoded : ∀ r ∈ rs, Entries.OfDecoded r)
      (before : Reachable output username c d) : Reachable output username (c.insertAll rs).1 d
  | save (c : Cache) (d : Disk) (before : Reachable output username c d) :
      Reachable output username c (c.save d).2.1
  | elsewhere (c : Cache) (d d' : Disk) (before : Reachable output username c d) :
      Reachable output username c d'

theorem folder_load (c : Cache) (d : Disk) : (c.load d).2.1.folder = c.folder := by
  unfold load
  dsimp only
  repeat' split
  all_goals rfl

theorem proper_of_document {content : Bytes} {x : Json} (h : content.document = .ok x) :
    x.Proper := by
  unfold Bytes.document at h
  split at h
  · cases h
  split at h
  · cases h
  · rename_i y hy
    cases h
    exact Json.proper_of_read hy

/-- A loaded cache has the entries of its file, or none. -/
theorem entries_load (c : Cache) (d : Disk) : (c.load d).2.1.entries = []
    ∨ ∃ items, d.document c.path = .ok (.array items)
      ∧ (Entries.readItems [] items).2 = .ok (c.load d).2.1.entries := by
  unfold load
  dsimp only
  split
  · exact .inl rfl
  split
  · exact .inl rfl
  · exact .inl rfl
  · rename_i items hdocument
    split
    · exact .inl rfl
    · rename_i hread
      exact .inr ⟨items, hdocument, by rw [hread]⟩
  · exact .inl rfl

theorem sound_load (c : Cache) (d : Disk) : (c.load d).2.1.entries.Sound := by
  rcases entries_load c d with hnone | ⟨items, hdocument, hread⟩
  · rw [hnone]
    exact Entries.sound_nil
  · have hproper : (Json.array items).Proper := by
      unfold Disk.document at hdocument
      split at hdocument
      · cases hdocument
      · exact proper_of_document hdocument
    cases hproper with
    | array _ hitems => exact Entries.sound_nil.readItems hitems hread

/-- Every step keeps the folder and leaves sound entries. -/
theorem Reachable.sound {output username : Text} {c : Cache} {d : Disk}
    (h : Reachable output username c d) :
    c.folder = (ofUser output username).folder ∧ c.entries.Sound := by
  induction h with
  | fresh d => exact ⟨rfl, Entries.sound_nil⟩
  | load c d before ih => exact ⟨(folder_load c d).trans ih.1, sound_load c d⟩
  | insertAll c d rs decoded before ih => exact ⟨ih.1, ih.2.insertAll decoded⟩
  | save c d before ih => exact ih
  | elsewhere c d d' before ih => exact ih

end Cache

end GalleryScan
