import GalleryScan.Listing.Fetch
import GalleryScan.Proofs.Cache.Sound

/-!
# Items of pages that were fetched

A page comes from the body of one answer, whichever of the tries it took, and its items are parts of
the value that was read from that body:

> `… = .ok p → ∃ body x, bodyValue body = .ok x ∧ (Page.ofJson? x).2 = .ok p`
> `… = .ok p → ∀ r ∈ p.items, Entries.OfDecoded r`
-/

set_option autoImplicit false

namespace GalleryScan

theorem mem_of_get_eq_array {x : Json} {name : Text} {xs : List Json}
    (h : x.get name = .array xs) : ∃ ms m, x = .object ms ∧ m ∈ ms ∧ m.2 = .array xs := by
  cases x with
  | object ms =>
    rw [Json.get, Json.member?] at h
    cases hlookup : ms.lookup name with
    | none =>
      rw [hlookup] at h
      cases h
    | some y =>
      rw [hlookup] at h
      obtain ⟨front, back, rfl, _⟩ := List.lookup_eq_some_iff.mp hlookup
      exact ⟨_, (name, y), rfl, List.mem_append_right _ (List.mem_cons_self ..), h⟩
  | _ => cases h

/-- What stands in a member of an answer that was read was decoded. -/
theorem decoded_of_item {body : Text} {x item : Json} {items : List Json} {r : Record}
    (hread : Json.read body = .ok x) (hitems : x.get "items" = .array items)
    (hitem : item ∈ items) (hrecord : Record.ofJson? item = .ok r) : Entries.OfDecoded r := by
  obtain ⟨ms, m, rfl, hm, hvalue⟩ := mem_of_get_eq_array hitems
  refine ⟨item, ⟨body, _, hread, .member item m ms hm ?_⟩, hrecord⟩
  rw [hvalue]
  exact .item item item items hitem (.refl item)

theorem decoded_of_ofJson {body : Text} {x : Json} {p : Page} (hread : Json.read body = .ok x)
    (h : (Page.ofJson? x).2 = .ok p) : ∀ r ∈ p.items, Entries.OfDecoded r := by
  unfold Page.ofJson? at h
  split at h
  · rename_i items hitems
    dsimp only at h
    split at h
    · cases h
      intro r hr
      obtain ⟨item, hitem, hrecord⟩ := List.mem_filterMap.mp hr
      cases hr : Record.ofJson? item with
      | error fault =>
        rw [hr] at hrecord
        cases hrecord
      | ok t =>
        rw [hr] at hrecord
        cases hrecord
        exact decoded_of_item hread hitems hitem hr
    · cases h
  · cases h

theorem read_of_bodyValue {body : Text} {x : Json} (h : bodyValue body = .ok x) :
    x = .null ∨ Json.read body = .ok x := by
  unfold bodyValue at h
  split at h
  · cases h
    exact .inl rfl
  · split at h
    · rename_i y hread
      cases h
      exact .inr hread
    · cases h

theorem listing_of_pageOf {q : PageQuery} {a : ListingAnswer} {p : Page}
    (h : (pageOf q a).2 = .ok p) : ∃ x, bodyValue a.body = .ok x ∧ (Page.ofJson? x).2 = .ok p := by
  unfold pageOf at h
  split at h
  · cases h
  split at h
  · cases h
  split at h
  · cases h
  split at h
  · cases h
  rename_i x hbody
  cases hpage : Page.ofJson? x with
  | mk reports result =>
    rw [hpage] at h
    cases result with
    | error fault => cases fault <;> cases h
    | ok q =>
      cases h
      exact ⟨x, hbody, by rw [hpage]⟩

/-- By induction on the retries. -/
theorem listing_of_fetchFrom {c : Client} {q : PageQuery} {attempt retries : Nat}
    {replies : List ListingReply} {p : Page}
    (h : (fetchFrom c q attempt retries replies).result = .ok p) :
    ∃ body x, bodyValue body = .ok x ∧ (Page.ofJson? x).2 = .ok p := by
  have honce : ∀ replies, (fetchOnce c q replies).result = .ok p →
      ∃ body x, bodyValue body = .ok x ∧ (Page.ofJson? x).2 = .ok p := by
    intro replies h
    unfold fetchOnce conclude at h
    cases hreply : nextReply replies with
    | error fault =>
      rw [hreply] at h
      cases h
    | ok a =>
      rw [hreply] at h
      exact ⟨a.body, listing_of_pageOf h⟩
  induction retries generalizing attempt replies with
  | zero => exact honce replies h
  | succ retries ih =>
    rw [fetchFrom] at h
    split at h
    · exact honce replies h
    · split at h
      · cases h
      · exact ih h

theorem decoded_of_fetchFrom {c : Client} {q : PageQuery} {attempt retries : Nat}
    {replies : List ListingReply} {p : Page}
    (h : (fetchFrom c q attempt retries replies).result = .ok p) :
    ∀ r ∈ p.items, Entries.OfDecoded r := by
  obtain ⟨body, x, hbody, hpage⟩ := listing_of_fetchFrom h
  rcases read_of_bodyValue hbody with rfl | hread
  · cases hpage
  · exact decoded_of_ofJson hread hpage

end GalleryScan
