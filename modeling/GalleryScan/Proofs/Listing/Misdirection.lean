import GalleryScan.Proofs.Listing.Verdict
import Mathlib

/-!
# Listings that break a scan off

All that can go wrong while a page is fetched is told as an error of the page, up to and with the
decoding of the body. The listing is taken out of the decoded value behind all that, and it may
name an address of its next page that cannot be taken apart. Then fetching breaks off:

> `(fetchPage c q replies).result = .error (.stop s) ↔ … a.Misdirects fault`
-/

set_option autoImplicit false

namespace GalleryScan

theorem Page.cursorOf_eq_error_iff {metadata : Json} {fault : AddressFault} :
    Page.cursorOf metadata = .error fault ↔ (metadata.get "nextCursor").isTruthy = false
      ∧ (metadata.get "nextPage").isTruthy = true
      ∧ Address.query (metadata.get "nextPage").plain = .error fault := by
  unfold Page.cursorOf
  dsimp only
  cases (metadata.get "nextCursor").isTruthy with
  | true => simp
  | false =>
    cases (metadata.get "nextPage").isTruthy with
    | false => simp
    | true =>
      cases Address.query (metadata.get "nextPage").plain with
      | error fault => simp [Bind.bind, Except.bind]
      | ok query => simp [Bind.bind, Except.bind, pure, Except.pure]

theorem Page.ofJson?_eq_address_iff {x : Json} {fault : AddressFault} :
    (Page.ofJson? x).2 = .error (.address fault) ↔ ∃ items, x.get "items" = .array items
      ∧ Page.cursorOf (x.get "metadata") = .error fault := by
  unfold Page.ofJson?
  split
  · rename_i items hitems
    cases hcursor : Page.cursorOf (x.get "metadata") with
    | error fault => simp [hitems]
    | ok cursor => simp
  · rename_i hother
    exact ⟨nofun, fun ⟨items, hitems, _⟩ => (hother items hitems).elim⟩

/-- The answer is a listing, and the address of its next page, by which alone the listing could go
on, cannot be taken apart. -/
structure ListingAnswer.Misdirects (a : ListingAnswer) (fault : AddressFault) : Prop where
  accepted : a.status < 400
  listing : ∃ x items, bodyValue a.body = .ok x ∧ x.get "items" = .array items
    ∧ ((x.get "metadata").get "nextCursor").isTruthy = false
    ∧ ((x.get "metadata").get "nextPage").isTruthy = true
    ∧ Address.query ((x.get "metadata").get "nextPage").plain = .error fault

section Stopping

variable {c : Client} {q : PageQuery} {reply : ListingReply} {stop : Stop}

theorem misdirects_of_verdict (h : Verdict q reply (.error (.stop stop))) :
    ∃ a fault, reply = .ok a ∧ stop = .breakdown (.address fault) ∧ a.Misdirects fault := by
  generalize hresult : Except.error (FetchStop.stop stop) = result at h
  cases h with
  | parsed a status x body =>
    cases hpage : (Page.ofJson? x).2 with
    | ok page =>
      rw [hpage] at hresult
      cases hresult
    | error fault =>
      rw [hpage] at hresult
      cases fault with
      | unexpected answer => cases hresult
      | address fault =>
        cases hresult
        obtain ⟨items, hitems, hcursor⟩ := Page.ofJson?_eq_address_iff.mp hpage
        exact ⟨a, fault, rfl, rfl, status, x, items, body, hitems,
          Page.cursorOf_eq_error_iff.mp hcursor⟩
  | _ => cases hresult

theorem ListingAnswer.Misdirects.conclude {a : ListingAnswer} {fault : AddressFault}
    (h : a.Misdirects fault) (c : Client) (q : PageQuery) :
    (conclude c q (.ok a)).2 = .error (.stop (.breakdown (.address fault))) := by
  obtain ⟨haccepted, x, items, hbody, hitems, hnext⟩ := h
  have hpage : (Page.ofJson? x).2 = .error (.address fault) :=
    Page.ofJson?_eq_address_iff.mpr ⟨items, hitems, Page.cursorOf_eq_error_iff.mpr hnext⟩
  show (pageOf q a).2 = _
  rw [pageOf, if_neg (by omega), if_neg (by omega), if_neg (by omega), hbody]
  dsimp only
  rw [hpage]

/-- Fetching a page ends with the page or with an error of the page, unless the reply that decides
is such a listing; then it breaks off, for nobody expects the address to be malformed. That reply
decides where the pauses in front of it can be taken. -/
theorem fetchPage_stops_iff (c : Client) (q : PageQuery) (replies : List ListingReply)
    (hretries : c.retries < Amount.powerLimit) (hforeseen : ∀ r ∈ replies, r.IsForeseen)
    (stop : Stop) :
    let tries := min (leadingBusy replies) c.retries
    (fetchPage c q replies).result = .error (.stop stop) ↔
      (∀ i < tries, ∀ a, replies[i]? = some (.ok a) →
        ∃ length, pauseBefore c i a.headers = .ok length)
      ∧ ∃ a fault, nextReply (replies.drop tries) = .ok a
        ∧ stop = .breakdown (.address fault) ∧ a.Misdirects fault := by
  intro tries
  rcases fetchFrom_course c q 0 c.retries replies with ⟨pauses, hlength, hexchange⟩ | hgivesUp
  · have hdecided : (fetchPage c q replies).result
        = (conclude c q (nextReply (replies.drop tries))).2 := by
      rw [show tries = pauses.length from hlength.symm]
      exact hexchange.decided
    have hverdict := verdict_conclude c q (foreseen_nextReply hforeseen tries)
    rw [hdecided]
    constructor
    · intro hstop
      rw [hstop] at hverdict
      refine ⟨fun i hi a ha => ?_, misdirects_of_verdict hverdict⟩
      obtain ⟨b, hb, hpause⟩ :=
        hexchange.taken i _ (List.getElem?_eq_getElem (hlength.symm ▸ hi : i < pauses.length))
      cases ha.symm.trans hb
      exact ⟨_, by rwa [Nat.zero_add] at hpause⟩
    · rintro ⟨-, a, fault, hreply, rfl, hmisdirects⟩
      rw [hreply, hmisdirects.conclude]
  · -- What is given up for a pause is reported.
    obtain ⟨i, hi, a, due, hreply, hpause, hresult⟩ := hgivesUp.due
    rw [Nat.zero_add] at hpause
    constructor
    · intro hstop
      obtain ⟨fault, rfl⟩ := fault_of_pauseBefore (by omega) hpause
      cases hstop.symm.trans hresult
    · rintro ⟨htaken, -⟩
      obtain ⟨length, hlength⟩ := htaken i hi a hreply
      cases hpause.symm.trans hlength

end Stopping

namespace OpenBracket

open BusyTwice (query)

/-- A listing whose next page is at a host with one bracket. -/
def listing : ListingAnswer :=
  ⟨200, [], [], "\x7b\"items\":[],\"metadata\":\x7b\"nextPage\":\"http://[x?cursor=1\"\x7d\x7d"⟩

theorem misdirects_listing : listing.Misdirects .bracket := by
  refine ⟨by decide, .object [("items", .array []),
    ("metadata", .object [("nextPage", .text "http://[x?cursor=1")])], [], ?_, rfl, rfl, rfl, ?_⟩
  · cbv
  · cbv

theorem foreseen_listing : ∀ r ∈ [Except.ok listing], ListingReply.IsForeseen r := by
  intro r hr fault hfault
  rw [List.mem_singleton.mp hr] at hfault
  cases hfault

/-- Not all that a body may hold is reported. -/
theorem not_all_reported :
    ¬ ∀ (c : Client) (q : PageQuery) (replies : List ListingReply),
      c.retries < Amount.powerLimit → (∀ r ∈ replies, ListingReply.IsForeseen r) →
        (∃ page, (fetchPage c q replies).result = .ok page)
          ∨ ∃ e, (fetchPage c q replies).result = .error (.error e) := by
  intro h
  have hstops : (fetchPage (Client.withKey .null) query [.ok listing]).result
      = .error (.stop (.breakdown (.address .bracket))) :=
    misdirects_listing.conclude (Client.withKey .null) query
  rcases h (Client.withKey .null) query [.ok listing] (by decide) foreseen_listing with
    ⟨page, hpage⟩ | ⟨e, he⟩
  · cases hstops.symm.trans hpage
  · cases hstops.symm.trans he

/-- At this listing. -/
theorem fetchPage_stops_iff_bracket :
    (fetchPage (Client.withKey .null) query [.ok listing]).result
      = .error (.stop (.breakdown (.address .bracket))) := by
  refine (fetchPage_stops_iff (Client.withKey .null) query [.ok listing] (by decide)
    foreseen_listing _).mpr ⟨nofun, listing, .bracket, rfl, rfl, misdirects_listing⟩

end OpenBracket

end GalleryScan
