import GalleryScan.Proofs.Cache.Overlay
import GalleryScan.Proofs.Disk.Changing
import Mathlib

/-!
# What loading a cache comes to

Whatever there is under the name of a cache file, loading it leaves the cache empty or with the
objects of the file that have an id, each key once, where it first stood, and with the last object
that has it:

> `(∀ stop, (c.load d).2.2 = .error stop ↔ c.Obstructs d stop) ∧ c.Loads d (c.load d)`

A file that cannot be read is reported and counts as empty. Two things are not reported but end the
run: a whole number of too many digits, and an object whose id has parts.
-/

set_option autoImplicit false

namespace GalleryScan

/-! ## Ids -/

/-- Just the values with parts are no keys. -/
theorem Key.of?_eq_error_iff {id : Json} {fault : KeyFault} :
    Key.of? id = .error fault ↔ id.isAtom = false ∧ fault = ⟨id.kind⟩ := by
  cases id <;> simp [Key.of?, Json.isAtom, eq_comm]

theorem Key.exists_of?_iff {id : Json} : (∃ k, Key.of? id = .ok k) ↔ id.isAtom = true := by
  cases id <;> simp [Key.of?, Json.isAtom]

/-- The key of an item, if its id is one. -/
def Json.key? (item : Json) : Option Key := (Key.of? (item.get "id")).toOption

theorem Json.key?_eq_some_iff {item : Json} {k : Key} :
    item.key? = some k ↔ Key.of? (item.get "id") = .ok k := by
  rw [Json.key?]
  cases Key.of? (item.get "id") <;> simp [Except.toOption]

/-- Only objects have ids. -/
theorem Json.exists_object {item : Json} (h : (item.get "id").isNull = false) :
    ∃ members, item = .object members := by
  cases item with
  | object members => exact ⟨members, rfl⟩
  | _ => cases h

namespace Entries

/-- The items that have an id. -/
def identified (items : List Json) : List Json := items.filter fun x => !(x.get "id").isNull

/-- The first id that has parts. -/
def unkeyed? (items : List Json) : Option Json :=
  ((identified items).map (Json.get "id")).find? (!·.isAtom)

/-- The entries are those of the objects: a key stands where an object first had it, and under it is
the last object that has it, as a record if it is one. -/
structure HoldLast (objects : List Json) (es : Entries) : Prop where
  keys : es.map Prod.fst = (objects.filterMap Json.key?).eraseDups
  objects : ∀ k, (es.lookup k).map (fun e => Json.object e.raw)
    = objects.reverse.find? fun x => x.key? = some k
  records : ∀ x ∈ es, x.2.record? = Record.ofMembers? x.2.raw

variable {objects items : List Json} {item : Json} {es es' : Entries}

theorem holdLast_nil : HoldLast [] [] := ⟨rfl, fun _ => rfl, List.forall_mem_nil _⟩

theorem record?_entryOf (members : List (Text × Json)) :
    (entryOf members).2.record? = Record.ofMembers? members := by
  unfold entryOf
  cases Record.ofMembers? members <;> rfl

theorem HoldLast.set {members : List (Text × Json)} {k : Key} (h : HoldLast objects es)
    (hk : Key.of? ((Json.object members).get "id") = .ok k) :
    HoldLast (objects ++ [.object members]) (es.set k (entryOf members).2) where
  keys := by
    have hkey : (Json.object members).key? = some k := Json.key?_eq_some_iff.mpr hk
    rw [keys_set, h.keys, List.filterMap_append, List.filterMap_cons_some hkey,
      List.filterMap_nil, eraseDups_concat]
    simp only [List.mem_eraseDups]
  objects := by
    intro l
    have hkey : (Json.object members).key? = some k := Json.key?_eq_some_iff.mpr hk
    rw [lookup_set, List.reverse_concat, List.find?_cons, hkey]
    by_cases hl : l = k
    · simp [hl, raw_entryOf]
    · simp [hl, Ne.symm hl, h.objects]
  records := by
    intro x hx
    rcases mem_set hx with rfl | hx
    · rw [record?_entryOf, raw_entryOf]
    · exact h.records x hx

/-! ## Reading items -/

theorem identified_cons_of_null (h : (item.get "id").isNull = true) (items : List Json) :
    identified (item :: items) = identified items :=
  List.filter_cons_of_neg (by simp [h])

theorem identified_cons_of_not_null (h : (item.get "id").isNull = false) (items : List Json) :
    identified (item :: items) = item :: identified items :=
  List.filter_cons_of_pos (by simp [h])

/-- An item without an id is dropped. -/
theorem readItems_cons_of_null (h : (item.get "id").isNull = true) (es : Entries)
    (items : List Json) : (readItems es (item :: items)).2 = (readItems es items).2 := by
  rw [readItems]
  intro members _ hfalse
  rw [h] at hfalse
  cases hfalse

/-- Reading breaks off at the first id that has parts, and else takes in every object with an id. By
induction on the items. -/
theorem HoldLast.readItems (h : HoldLast objects es) (items : List Json) :
    match unkeyed? items with
    | some id => (readItems es items).2 = .error ⟨id.kind⟩
    | none => ∃ es', (readItems es items).2 = .ok es'
      ∧ HoldLast (objects ++ identified items) es' := by
  induction items generalizing objects es with
  | nil => exact ⟨es, rfl, by rwa [identified, List.filter_nil, List.append_nil]⟩
  | cons item items ih =>
    cases hnull : (item.get "id").isNull with
    | true =>
      rw [unkeyed?, identified_cons_of_null hnull, readItems_cons_of_null hnull]
      exact ih h
    | false =>
      obtain ⟨members, rfl⟩ := Json.exists_object hnull
      rw [unkeyed?, identified_cons_of_not_null hnull, List.map_cons, List.find?_cons]
      cases hk : Key.of? ((Json.object members).get "id") with
      | error fault =>
        obtain ⟨hparts, rfl⟩ := Key.of?_eq_error_iff.mp hk
        rw [hparts]
        show (Entries.readItems es (.object members :: items)).2 = _
        rw [Entries.readItems]
        · dsimp only
          rw [hk]
        · exact hnull
      | ok k =>
        have hatom := Key.exists_of?_iff.mp ⟨k, hk⟩
        have hrest := ih (h.set hk)
        rw [List.append_assoc, List.singleton_append] at hrest
        rw [hatom, readItems_entry es items hnull hk]
        exact hrest

end Entries

/-! ## Loading -/

namespace Cache

/-- What there is in a cache file that ends a run: a whole number of too many digits, or an object
whose id has parts, the first of which is told. -/
inductive Obstructs (c : Cache) (d : Disk) : CacheStop → Prop where
  | tooLong (digits : Nat) (document : d.document c.path = .error (.malformed (.tooLong digits))) :
      Obstructs c d (.tooLong digits)
  | parts (items : List Json) (id : Json) (document : d.document c.path = .ok (.array items))
      (first : Entries.unkeyed? items = some id) : Obstructs c d (.key ⟨id.kind⟩)

/-- What loading tells, the cache that it leaves, and whether the run goes on. -/
inductive Loads (c : Cache) (d : Disk) : Log × Cache × Except CacheStop Unit → Prop where
  | missing (absent : d.hasEntry c.path = false) : Loads c d ([], { c with entries := [] }, .ok ())
  | corrupt (fault : DocumentFault) (present : d.hasEntry c.path = true)
      (document : d.document c.path = .error fault)
      (short : ∀ digits, fault ≠ .malformed (.tooLong digits)) :
      Loads c d ([c.corrupt fault.message], { c with entries := [] }, .ok ())
  | noList (x : Json) (document : d.document c.path = .ok x) (other : ∀ items, x ≠ .array items) :
      Loads c d ([c.corrupt "expected a list"], { c with entries := [] }, .ok ())
  | holds (items : List Json) (es : Entries) (log : Log)
      (document : d.document c.path = .ok (.array items))
      (keyed : ∀ x ∈ Entries.identified items, (x.get "id").isAtom = true)
      (last : Entries.HoldLast (Entries.identified items) es) :
      Loads c d (log, { c with entries := es }, .ok ())
  | stopped (stop : CacheStop) (log : Log) (obstructed : c.Obstructs d stop) :
      Loads c d (log, { c with entries := [] }, .error stop)

variable {c : Cache} {d : Disk}

theorem loads_load (c : Cache) (d : Disk) : c.Loads d (c.load d) := by
  unfold load
  dsimp only
  cases hentry : d.hasEntry c.path with
  | false => exact .missing hentry
  | true =>
    rw [Bool.not_true, if_neg Bool.false_ne_true]
    cases hdocument : d.document c.path with
    | error fault =>
      split
      · rename_i digits hfault
        cases hfault
        exact .stopped _ _ (.tooLong digits hdocument)
      · rename_i other hshort hfault
        cases hfault
        refine .corrupt fault hentry hdocument ?_
        rintro digits rfl
        exact hshort digits rfl
      · rename_i hfault
        cases hfault
      · rename_i hfault
        cases hfault
    | ok x =>
      cases x with
      | array items =>
        have hread := Entries.holdLast_nil.readItems items
        dsimp only
        cases hitems : Entries.readItems [] items with
        | mk log result =>
          rw [hitems] at hread
          cases hfirst : Entries.unkeyed? items with
          | some id =>
            rw [hfirst] at hread
            obtain rfl : result = .error ⟨id.kind⟩ := hread
            exact .stopped _ _ (.parts items id hdocument hfirst)
          | none =>
            rw [hfirst] at hread
            obtain ⟨es, rfl, hlast⟩ : ∃ es, result = .ok es ∧ _ := hread
            refine .holds items es _ hdocument ?_ hlast
            rw [Entries.unkeyed?, List.find?_eq_none] at hfirst
            intro x hx
            simpa using hfirst _ (List.mem_map_of_mem hx)
      | _ => exact .noList _ hdocument nofun

theorem Obstructs.hasEntry {stop : CacheStop} (h : c.Obstructs d stop) :
    d.hasEntry c.path = true := by
  cases hread : d.read c.path with
  | ok content => exact Disk.hasEntry_of_read hread
  | error fault =>
    have hdocument : d.document c.path = .error (.unreadable fault) := by
      rw [Disk.document, hread]
    cases h with
    | tooLong digits document => cases document.symm.trans hdocument
    | parts items id document first => cases document.symm.trans hdocument

/-- A file obstructs loading in one way. -/
theorem Obstructs.unique {stop stop' : CacheStop} (h : c.Obstructs d stop)
    (h' : c.Obstructs d stop') : stop = stop' := by
  cases h with
  | tooLong digits document =>
    cases h' with
    | tooLong digits' document' =>
      cases document.symm.trans document'
      rfl
    | parts items id document' first => cases document.symm.trans document'
  | parts items id document first =>
    cases h' with
    | tooLong digits document' => cases document.symm.trans document'
    | parts items' id' document' first' =>
      cases document.symm.trans document'
      cases first.symm.trans first'
      rfl

/-- Where the run goes on, nothing obstructs it. -/
theorem Loads.not_obstructs {log : Log} {c' : Cache} (h : c.Loads d (log, c', .ok ()))
    (stop : CacheStop) : ¬ c.Obstructs d stop := by
  intro hobstructs
  cases h with
  | missing absent => cases absent.symm.trans hobstructs.hasEntry
  | corrupt fault present document short =>
    cases hobstructs with
    | tooLong digits document' =>
      cases document.symm.trans document'
      exact short digits rfl
    | parts items id document' first => cases document.symm.trans document'
  | noList x document other =>
    cases hobstructs with
    | tooLong digits document' => cases document.symm.trans document'
    | parts items id document' first =>
      cases document.symm.trans document'
      exact other items rfl
  | holds items es log document keyed last =>
    cases hobstructs with
    | tooLong digits document' => cases document.symm.trans document'
    | parts items id document' first =>
      cases document.symm.trans document'
      obtain ⟨x, hx, rfl⟩ := List.mem_map.mp (List.mem_of_find?_eq_some first)
      have hparts := List.find?_some first
      rw [keyed x hx] at hparts
      cases hparts

theorem load_eq_error_iff {stop : CacheStop} :
    (c.load d).2.2 = .error stop ↔ c.Obstructs d stop := by
  have hloads := loads_load c d
  rcases hload : c.load d with ⟨log, c', result⟩
  rw [hload] at hloads
  cases result with
  | ok _ => exact ⟨nofun, fun h => (hloads.not_obstructs stop h).elim⟩
  | error stop' =>
    cases hloads with
    | stopped _ _ obstructed =>
      constructor
      · intro h
        cases h
        exact obstructed
      · intro h
        rw [h.unique obstructed]

/-- Loading ends the run just where the file obstructs it, and else leaves the cache empty or with
the objects of the file. -/
theorem load_settles (c : Cache) (d : Disk) :
    (∀ stop, (c.load d).2.2 = .error stop ↔ c.Obstructs d stop) ∧ c.Loads d (c.load d) :=
  ⟨fun _ => load_eq_error_iff, loads_load c d⟩

end Cache

namespace ListId

/-- A cache file with one object, whose id is a list. -/
def stored : Text := "[\x7b\"id\":[1]\x7d]"

def disk : Disk :=
  ⟨[], [(["out"], .folder), (["out", "ann"], .folder),
    (["out", "ann", "metadata.json"], .file stored.bytes)]⟩

theorem obstructs_disk : (Cache.ofUser "out" "ann").Obstructs disk (.key ⟨"list"⟩) := by
  refine .parts [.object [("id", .array [.int 1])]] (.array [.int 1]) ?_ rfl
  have hpath : (Cache.ofUser "out" "ann").path = "out/ann/metadata.json" := by decide +kernel
  rw [hpath]
  cbv

/-- Not every cache file leaves the run going on. -/
theorem not_all_loaded : ¬ ∀ (c : Cache) (d : Disk), (c.load d).2.2 = .ok () := by
  intro h
  have hstops := Cache.load_eq_error_iff.mpr obstructs_disk
  cases (h _ _).symm.trans hstops

end ListId

end GalleryScan
